import SystemFunc.Multithread.Owners

/-!
# The threads serve their own connections

- `inv_step`: every step keeps what the holders have;
- `Inv.wild`: no thread uses what is not there;
- `echo_moved`: the loops of the threads are components of the process;
- `serves_threads`: what the server does, in every interleaving.
-/

namespace SystemFunc.Multithread

open Components (Moved actsOf)
open LineServer (Echo EchoAct EchoSpec Fits)
open Multiprocess (File)
open Slots (slot_set slot_snoc)

variable {v : Env} {s t : State} {a : Act} {as : List Act} {i : Nat} {th : Thread}

/-! ## The invariant -/

/-- Behind the loop. -/
def Pc.done : Pc → Bool
  | .freed _ | .ended => true
  | _ => false

structure Inv (v : Env) (s : State) : Prop where
  owned : s.ctrl.running = true → Owned v.setup.fds s.fds s.heap v.peer (holder s.ctrl s.threads)
  clientAddr : ∀ cfd, s.ctrl = .malloc cfd → s.clientAddr = v.peer s.threads.length
  left : ∀ (i : Nat) (th : Thread), s.threads[i]? = some th → th.pc.done = true → ∃ cnt, th.echo.ctrl = .left cnt

theorem inv_start (v : Env) : Inv v (start v) where
  owned := fun _ => by
    refine ⟨fun k => ?_, fun _ _ => nofun, fun c c' k hc => ?_, fun c f _ => Iff.rfl⟩
    · have hended : holder (start v).ctrl (start v).threads k = .ended := ite_self _
      rw [hended]
      exact .ended (v.setup.not_has_conn k)
    · exact absurd ⟨c, hc⟩ (v.setup.not_has_conn k)
  clientAddr := fun _ => nofun
  left := fun _ _ => nofun

/-- The other threads stay behind their loops. -/
theorem left_set {threads : List Thread} {th' : Thread}
    (hleft : ∀ (j : Nat) (u : Thread), threads[j]? = some u → u.pc.done = true → ∃ cnt, u.echo.ctrl = .left cnt)
    (hnew : th'.pc.done = true → ∃ cnt, th'.echo.ctrl = .left cnt) :
    ∀ (j : Nat) (u : Thread), (threads.set i th')[j]? = some u → u.pc.done = true → ∃ cnt, u.echo.ctrl = .left cnt := by
  intro j u hu
  obtain ⟨-, rfl⟩ | ⟨-, hu⟩ := slot_set hu
  · exact hnew
  · exact hleft j u hu

/-- A process that has stopped. -/
theorem Inv.stop {ctrl : MainCtrl} (h : Inv v s) (hstop : ctrl.running = false) : Inv v { s with ctrl := ctrl } where
  owned := fun hrun => absurd (hrun.symm.trans hstop) Bool.noConfusion
  clientAddr := fun cfd hctrl => by
    have hctrl : ctrl = .malloc cfd := hctrl
    rw [hctrl] at hstop
    cases hstop
  left := h.left

/-- A thread goes on, and `main` does not. -/
theorem Inv.set {fds' : Entries File} {heap' : Entries ThreadNode} {th' : Thread} (h : Inv v s)
    (hth : s.threads[i]? = some th)
    (hown : s.ctrl.running = true →
      Owned v.setup.fds fds' heap' v.peer (Function.update (holder s.ctrl s.threads) i th'.pc))
    (hnew : th'.pc.done = true → ∃ cnt, th'.echo.ctrl = .left cnt) :
    Inv v { s.set i th' with fds := fds', heap := heap' } where
  owned := fun hrun => by
    show Owned _ _ _ _ (holder s.ctrl (s.threads.set i th'))
    rw [holder_set hth]
    exact hown hrun
  clientAddr := fun cfd hctrl => by
    show s.clientAddr = v.peer (s.threads.set i th').length
    rw [List.length_set]
    exact h.clientAddr cfd hctrl
  left := left_set h.left hnew

theorem Inv.echo {e : Echo} (h : Inv v s) (hth : s.threads[i]? = some th) (hpc : th.pc.done = false) :
    Inv v (s.echoed i th e) := by
  have hset : Inv v (s.set i { th with echo := e }) := by
    refine h.set hth (fun hrun => ?_) fun hd => absurd (hd.symm.trans hpc) Bool.noConfusion
    have hsame : Function.update (holder s.ctrl s.threads) i th.pc = holder s.ctrl s.threads :=
      Function.update_eq_self_iff.2 (holder_thread hth).symm
    exact hsame.symm ▸ h.owned hrun
  unfold State.echoed
  dsimp only
  split
  next => exact hset.stop rfl
  next => exact hset

theorem inv_step (s : State) (a : Act) (t : State) (h : Inv v s) (hs : step v s a = some t) : Inv v t := by
  cases step_moves hs with
  | accept hctrl hfree =>
    have hown := h.owned (by rw [hctrl]; rfl)
    have hk : holder s.ctrl s.threads s.threads.length = .ended := by rw [holder_main, hctrl]; rfl
    refine ⟨fun _ => ?_, fun _ _ => rfl, h.left⟩
    rw [holder_ctrl s.ctrl]
    exact hown.accept hk hfree
  | die _ _ => exact h.stop rfl
  | null _ => exact h.stop rfl
  | malloc hctrl hfree =>
    have hown := h.owned (by rw [hctrl]; rfl)
    have hk : holder s.ctrl s.threads s.threads.length = _ := (holder_main ..).trans (congrArg MainCtrl.pc hctrl)
    refine ⟨fun _ => ?_, fun _ => nofun, h.left⟩
    rw [holder_ctrl s.ctrl, h.clientAddr _ hctrl]
    exact hown.malloc hk hfree
  | create hctrl =>
    have hown := h.owned (by rw [hctrl]; rfl)
    refine ⟨fun _ => ?_, fun _ => nofun, fun i th hth hd => ?_⟩
    · rw [hctrl] at hown
      rw [holder_create rfl]
      exact hown
    · have hth : (s.threads ++ [_])[i]? = some th := hth
      obtain ⟨-, rfl⟩ | hth := slot_snoc hth
      · cases hd
      · exact h.left i th hth hd
  | detach hctrl =>
    have hown := h.owned (by rw [hctrl]; rfl)
    rw [hctrl] at hown
    exact ⟨fun _ => hown, fun _ => nofun, h.left⟩
  | begin hrun hth hpc hnode =>
    refine h.set hth (fun hrun => ?_) nofun
    exact (h.owned hrun).begin ((holder_thread hth).trans hpc) hnode
  | echo hrun hth hpc hfd hs =>
    exact h.echo hth (by rw [hpc]; rfl)
  | free hrun hth hpc hleft hnode =>
    refine h.set hth (fun hrun => ?_) fun _ => ⟨_, hleft⟩
    exact (h.owned hrun).free ((holder_thread hth).trans hpc)
  | close hrun hth hpc =>
    have hleft := h.left _ _ hth (by rw [hpc]; rfl)
    refine h.set hth (fun hrun => ?_) fun _ => hleft
    exact (h.owned hrun).close ((holder_thread hth).trans hpc)
  | wildBegin _ _ _ _ => exact h.stop rfl
  | wildEcho _ _ _ _ => exact h.stop rfl
  | wildFree _ _ _ _ => exact h.stop rfl

theorem inv_run (hr : Steps.run (step v) (start v) as = some s) : Inv v s :=
  Steps.run_inv inv_step (inv_start v) hr

/-! ## Why the process stops -/

/-- What a thread uses is there. -/
theorem Inv.wild (h : Inv v s) (hs : Moves v s a t) (ht : t.ctrl = .undefined) : a = .malloc none := by
  have howns : s.ctrl.running = true → ∀ {i : Nat} {th : Thread}, s.threads[i]? = some th →
      Owns s.fds s.heap v.peer i th.pc := fun hrun i th hth => holder_thread hth ▸ (h.owned hrun).owns i
  cases hs with
  | accept hctrl _ => cases ht
  | die _ _ => cases ht
  | null _ => rfl
  | malloc _ _ => cases ht
  | create _ => cases ht
  | detach _ => cases ht
  | begin hrun _ _ _ =>
    have ht : s.ctrl = .undefined := ht
    rw [ht] at hrun
    cases hrun
  | @echo i arg cfd peer th a e hrun _ _ _ _ =>
    unfold State.echoed at ht
    dsimp only at ht
    split at ht
    next => cases ht
    next =>
      have ht : s.ctrl = .undefined := ht
      rw [ht] at hrun
      cases hrun
  | free hrun _ _ _ _ =>
    have ht : s.ctrl = .undefined := ht
    rw [ht] at hrun
    cases hrun
  | close hrun _ _ =>
    have ht : s.ctrl = .undefined := ht
    rw [ht] at hrun
    cases hrun
  | wildBegin hrun hth hpc hnode =>
    have how := howns hrun hth
    rw [hpc] at how
    cases how with
    | begin hnode' _ _ => exact absurd (hnode'.symm.trans hnode) (Option.some_ne_none _)
  | wildEcho hrun hth hpc hfd =>
    have how := howns hrun hth
    rw [hpc] at how
    cases how with
    | serving _ hfd' => exact absurd hfd' hfd
  | wildFree hrun hth hpc hnode =>
    have how := howns hrun hth
    rw [hpc] at how
    cases how with
    | serving hnode' _ => exact absurd (hnode'.symm.trans hnode) (Option.some_ne_none _)

theorem Moves.running (hs : Moves v s a t) : s.ctrl.running = true := by
  cases hs with
  | accept hctrl _ | malloc hctrl _ | create hctrl | detach hctrl =>
    rw [hctrl]
    rfl
  | die hrun _ | null hrun | begin hrun _ _ _ | echo hrun _ _ _ _ | free hrun _ _ _ _ | close hrun _ _
  | wildBegin hrun _ _ _ | wildEcho hrun _ _ _ | wildFree hrun _ _ _ => exact hrun

/-- A call of `main` has failed, or one in the loop of a thread. -/
theorem Moves.exited {headStr : String} (hs : Moves v s a t) (ht : t.ctrl = .exited headStr) :
    a.fails = true ∨ ∃ (i : Nat) (th : Thread), t.threads[i]? = some th ∧ th.echo.ctrl = .exited headStr := by
  have hrun := hs.running
  have hsame : s.ctrl = .exited headStr → False := fun he => by
    rw [he] at hrun
    cases hrun
  cases hs with
  | accept _ _ | null _ | malloc _ _ | create _ | detach _ => cases ht
  | die _ ha => exact .inl ha
  | begin _ _ _ _ => exact (hsame ht).elim
  | @echo i arg cfd peer th a e _ hth _ _ _ =>
    unfold State.echoed at ht ⊢
    dsimp only at ht ⊢
    split at ht
    next m hm =>
      cases ht
      refine .inr ⟨i, { th with echo := e }, ?_, hm⟩
      exact List.getElem?_set_self (List.getElem?_eq_some_iff.1 hth).1
    next => exact (hsame ht).elim
  | free _ _ _ _ _ => exact (hsame ht).elim
  | close _ _ _ => exact (hsame ht).elim
  | wildBegin _ _ _ _ | wildEcho _ _ _ _ | wildFree _ _ _ _ => cases ht

/-! ## What the threads send back -/

def State.echos (s : State) : List Echo := s.threads.map Thread.echo

/-- Which thread is in its loop. -/
def Act.who : Act → Option (Nat × EchoAct)
  | .echo i a => some (i, a)
  | _ => none

theorem set_echo {th' : Thread} (hth : s.threads[i]? = some th) (he : th'.echo = th.echo) :
    (s.set i th').echos = s.echos := by
  refine List.ext_getElem? fun k => ?_
  rw [State.echos, State.echos, List.getElem?_map, List.getElem?_map, State.set]
  by_cases hk : i = k
  · subst hk
    rw [List.getElem?_set_self (List.getElem?_eq_some_iff.1 hth).1, hth, Option.map_some, Option.map_some, he]
  · rw [List.getElem?_set_ne hk]

theorem echos_echoed (s : State) (i : Nat) (th : Thread) (e : Echo) : (s.echoed i th e).echos = s.echos.set i e := by
  have hset : (s.set i { th with echo := e }).echos = s.echos.set i e := List.map_set
  unfold State.echoed
  dsimp only
  split <;> exact hset

/-- The loops are components of the process. -/
theorem echo_moved (h : Inv v s) (hs : step v s a = some t) :
    Moved Echo.step (fun j => .start (v.junk j) (v.setup.stream j)) s.echos a.who t.echos := by
  have hmoves := step_moves hs
  have hwild := h.wild hmoves
  cases hmoves with
  | accept _ _ => exact .stay
  | @die a headStr _ ha =>
    have hwho : a.who = none := by cases a <;> first | rfl | cases ha
    rw [hwho]
    exact .stay
  | null _ => exact .stay
  | malloc _ _ => exact .stay
  | @create arg _ =>
    have hechos : (s.threads ++ [(⟨.begin arg, .start (v.junk s.threads.length)
        (v.setup.stream s.threads.length)⟩ : Thread)]).map Thread.echo =
          s.echos ++ [.start (v.junk s.echos.length) (v.setup.stream s.echos.length)] := by
      rw [List.map_append, List.map_singleton, State.echos, List.length_map]
    show Moved _ _ s.echos none ((s.threads ++ [_]).map Thread.echo)
    rw [hechos]
    exact .new
  | detach _ => exact .stay
  | @begin i arg th node _ hth _ _ =>
    rw [set_echo hth (show ({ th with pc := .serving arg node.cfd node.peer } : Thread).echo = th.echo from rfl)]
    exact .stay
  | @echo i arg cfd peer th a e _ hth _ _ he =>
    rw [echos_echoed]
    exact .act (by rw [State.echos, List.getElem?_map, hth]; rfl) he
  | @free i arg cfd cnt peer th node _ hth _ _ _ =>
    have hsame := set_echo hth (show ({ th with pc := .freed cfd } : Thread).echo = th.echo from rfl)
    show Moved _ _ s.echos none (s.set i { th with pc := .freed cfd }).echos
    rw [hsame]
    exact .stay
  | @close i cfd th _ hth _ =>
    have hsame := set_echo hth (show ({ th with pc := .ended } : Thread).echo = th.echo from rfl)
    show Moved _ _ s.echos none (s.set i { th with pc := .ended }).echos
    rw [hsame]
    exact .stay
  | wildBegin _ _ _ _ => exact nomatch hwild rfl
  | wildEcho _ _ _ _ => exact nomatch hwild rfl
  | wildFree _ _ _ _ => exact nomatch hwild rfl

/-! ## The server -/

/-- Who holds what, what each thread sends back, and why the process stops. -/
structure Serving (v : Env) (as : List Act) (s : State) : Prop where
  owned : s.ctrl.running = true → Owned v.setup.fds s.fds s.heap v.peer (holder s.ctrl s.threads)
  block : s.ctrl.running = true → ∀ q j k, (holder s.ctrl s.threads j).arg = some q →
    (holder s.ctrl s.threads k).arg = some q → j = k
  echo : ∀ (i : Nat) (th : Thread), s.threads[i]? = some th → Fits (v.setup.stream i) →
    EchoAct.write (.cnt 0) ∉ actsOf Act.who i as →
    EchoSpec (v.setup.stream i) (actsOf Act.who i as) th.echo ∧ (th.pc.done = true → th.echo.out = v.setup.stream i)
  undefined : s.ctrl = .undefined → .malloc none ∈ as
  exited : ∀ headStr, s.ctrl = .exited headStr → (∃ a ∈ as, a.fails = true) ∨
    ∃ (i : Nat) (th : Thread), s.threads[i]? = some th ∧ th.echo.ctrl = .exited headStr

/-- **The server.** While the process runs, each connection and each block has exactly one holder, which has freed and
closed what it had when it ends; each thread sends back the lines of its own connection, whatever the others do; nothing
undefined happens unless `malloc` fails. -/
theorem serves_threads (hr : Steps.run (step v) (start v) as = some s) : Serving v as s := by
  have h := inv_run hr
  refine ⟨h.owned, fun hrun _ _ _ => (h.owned hrun).arg_inj, fun i th hth hfits hne => ?_, ?_, ?_⟩
  · have hecho : s.echos[i]? = some th.echo := by rw [State.echos, List.getElem?_map, hth, Option.map_some]
    have hrun := (Components.run_component inv_step (fun _ _ _ h hs => echo_moved h hs) (inv_start v) rfl hr).2
      i th.echo hecho
    have hspec := (LineServer.inv_run hfits hne hrun).spec
    refine ⟨hspec, fun hd => ?_⟩
    obtain ⟨cnt, hleft⟩ := h.left i th hth hd
    exact hspec.left cnt hleft
  · intro hctrl
    obtain ⟨-, rfl⟩ | ⟨bs, b, u, rfl, hu, hb⟩ := Steps.run_last hr
    · cases hctrl
    · obtain rfl := (inv_run hu).wild (step_moves hb) hctrl
      exact List.mem_append_right bs List.mem_cons_self
  · intro headStr hctrl
    obtain ⟨-, rfl⟩ | ⟨bs, b, u, rfl, hu, hb⟩ := Steps.run_last hr
    · cases hctrl
    · exact (step_moves hb).exited hctrl |>.imp_left fun hb => ⟨b, List.mem_append_right bs List.mem_cons_self, hb⟩

/-- The second client gets the descriptor and the block of the first. -/
def reusing : List Act :=
  [.accept 4, .malloc (some 16), .create true, .begin 0, .detach true, .echo 0 (.read (.cnt 1)),
    .echo 0 (.write (.cnt 1)), .echo 0 (.read (.cnt 0)), .free 0, .close 0, .accept 4, .malloc (some 16), .create true,
    .detach true, .begin 1, .echo 1 (.read (.cnt 1))]

/-- The clients of `reusing`. -/
def twoClients : Env where
  setup := ⟨3, fun n => n < 3, fun k => if k = 0 then [10] else [104, 10]⟩
  peer k := ⟨k, k⟩
  junk _ _ := 0

theorem serves_threads_reusing : ∃ s, Steps.run (step twoClients) (start twoClients) reusing = some s ∧
    s.threads.map Thread.pc = [.ended, .serving 16 4 ⟨1, 1⟩] ∧ Serving twoClients reusing s :=
  ⟨_, rfl, rfl, serves_threads rfl⟩

end SystemFunc.Multithread
