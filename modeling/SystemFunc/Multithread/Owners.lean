import SystemFunc.Multithread.Server

/-!
# What each thread owns

Every connection has one holder: `main` from `accept` to `pthread_create`, then its thread, until that has closed it.
The holder is the only one that has the descriptor, and the block until it is freed; so no thread meets a descriptor
or a block of another, though their numbers are used again.

- `Owned`: what is open and allocated belongs to the holders, and what they think they have is there;
- `Owned.accept`, `Owned.malloc`, `Owned.begin`, `Owned.free` and `Owned.close` keep this;
- `holder`: who holds a connection.
-/

namespace SystemFunc.Multithread

open Multiprocess (File)

variable {i k : Nat} {th : Thread} {fds base : Entries File} {heap : Entries ThreadNode} {peer : Nat → Peer}
  {h : Nat → Pc} {x : Pc} {q cfd addr : Nat} {node : ThreadNode}

/-! ## Owners -/

/-- The block that is not freed. -/
def Pc.arg : Pc → Option Nat
  | .begin arg | .serving arg _ _ => some arg
  | _ => none

/-- What the holder of connection `k` has. -/
inductive Owns (fds : Entries File) (heap : Entries ThreadNode) (peer : Nat → Peer) (k : Nat) : Pc → Prop
  | begin {arg : Nat} {node : ThreadNode} (hnode : heap arg = some node) (hfd : fds node.cfd = some (.conn k))
      (hpeer : node.peer = peer k) : Owns fds heap peer k (.begin arg)
  | serving {arg : Nat} {node : ThreadNode} (hnode : heap arg = some node) (hfd : fds node.cfd = some (.conn k)) :
      Owns fds heap peer k (.serving arg node.cfd (peer k))
  | freed {cfd : Nat} (hfd : fds cfd = some (.conn k)) : Owns fds heap peer k (.freed cfd)
  | ended (hno : ¬fds.Has (.conn k)) : Owns fds heap peer k .ended

/-- `h` are the holders, and `base` is what was open before. -/
structure Owned (base fds : Entries File) (heap : Entries ThreadNode) (peer : Nat → Peer) (h : Nat → Pc) : Prop where
  owns : ∀ k, Owns fds heap peer k (h k)
  heap : ∀ p node, heap p = some node → ∃ k, (h k).arg = some p
  conn : ∀ c c' k, fds c = some (.conn k) → fds c' = some (.conn k) → c = c'
  base : ∀ c f, (∀ k, f ≠ .conn k) → (fds c = some f ↔ base c = some f)

/-- What others do does not matter. -/
theorem Owns.mono {fds' : Entries File} {heap' : Entries ThreadNode} (hown : Owns fds heap peer k x)
    (hheap : ∀ p node, heap p = some node → fds node.cfd = some (.conn k) → heap' p = some node)
    (hfds : ∀ c, fds c = some (.conn k) → fds' c = some (.conn k))
    (hhas : fds'.Has (.conn k) → fds.Has (.conn k)) : Owns fds' heap' peer k x := by
  cases hown with
  | begin hnode hfd hpeer => exact .begin (hheap _ _ hnode hfd) (hfds _ hfd) hpeer
  | serving hnode hfd => exact .serving (hheap _ _ hnode hfd) (hfds _ hfd)
  | freed hfd => exact .freed (hfds _ hfd)
  | ended hno => exact .ended fun hh => hno (hhas hh)

/-- The holder of `k` goes on, and the other connections stay with theirs. -/
theorem owns_update {fds' : Entries File} {heap' : Entries ThreadNode} (how : ∀ k, Owns fds heap peer k (h k))
    (hk : Owns fds' heap' peer k x) (hothers : ∀ j, j ≠ k → Owns fds heap peer j (h j) → Owns fds' heap' peer j (h j)) :
    ∀ j, Owns fds' heap' peer j (Function.update h k x j) := by
  intro j
  by_cases hj : j = k
  · subst hj
    rw [Function.update_self]
    exact hk
  · rw [Function.update_of_ne hj]
    exact hothers j hj (how j)

/-- A block whose owner goes on with it stays owned. -/
theorem arg_update (hheap : ∃ j, (h j).arg = some addr) (hk : (h k).arg = some addr → x.arg = some addr) :
    ∃ j, (Function.update h k x j).arg = some addr := by
  obtain ⟨j, hj⟩ := hheap
  by_cases hjk : j = k
  · subst hjk
    exact ⟨j, by rw [Function.update_self]; exact hk hj⟩
  · exact ⟨j, by rw [Function.update_of_ne hjk]; exact hj⟩

namespace Owned

variable (hown : Owned base fds heap peer h)
include hown

/-- Two holders do not have one block. -/
theorem arg_inj {j : Nat} (hj : (h j).arg = some q) (hk : (h k).arg = some q) : j = k := by
  have hconn : ∀ {k}, (h k).arg = some q → ∃ node, heap q = some node ∧ fds node.cfd = some (.conn k) := by
    intro k hk
    have how := hown.owns k
    generalize h k = x at how hk
    cases how with
    | begin hnode hfd _ =>
      cases hk
      exact ⟨_, hnode, hfd⟩
    | serving hnode hfd =>
      cases hk
      exact ⟨_, hnode, hfd⟩
    | freed _ => cases hk
    | ended _ => cases hk
  obtain ⟨node, hnode, hfd⟩ := hconn hj
  obtain ⟨node', hnode', hfd'⟩ := hconn hk
  cases hnode.symm.trans hnode'
  exact File.conn.inj (Option.some.inj (hfd.symm.trans hfd'))

/-- `accept`. -/
theorem accept (hk : h k = .ended) (hfree : fds cfd = none) :
    Owned base (fds.add cfd (.conn k)) heap peer (Function.update h k (.freed cfd)) where
  owns := by
    refine owns_update hown.owns (.freed (Entries.add_self ..)) fun j hj how => ?_
    refine how.mono (fun _ _ hnode _ => hnode) (fun c hc => ?_) fun hh => ?_
    · exact Entries.add_eq_some.2 (.inr ⟨Entries.ne_of_none hfree hc, hc⟩)
    · exact ((Entries.has_add hfree).1 hh).resolve_left fun he => hj (File.conn.inj he)
  heap := fun p node hp => arg_update (hown.heap p node hp) fun hk' => by
    rw [hk] at hk'
    cases hk'
  conn := by
    have hno : ∀ c, fds c ≠ some (.conn k) := fun c hc => by
      have how := hown.owns k
      rw [hk] at how
      cases how with
      | ended hno => exact hno ⟨c, hc⟩
    intro c c' j hc hc'
    obtain ⟨hcfd, he⟩ | ⟨_, hold⟩ := Entries.add_eq_some.1 hc <;>
      obtain ⟨hcfd', he'⟩ | ⟨_, hold'⟩ := Entries.add_eq_some.1 hc'
    · exact hcfd.trans hcfd'.symm
    · exact absurd (he ▸ hold') (hno c')
    · exact absurd (he' ▸ hold) (hno c)
    · exact hown.conn c c' j hold hold'
  base := by
    intro c f hf
    rw [← hown.base c f hf, Entries.add_eq_some]
    constructor
    · rintro (⟨_, he⟩ | ⟨_, hc⟩)
      · exact absurd he.symm (hf k)
      · exact hc
    · exact fun hc => .inr ⟨Entries.ne_of_none hfree hc, hc⟩

/-- `malloc`. -/
theorem malloc (hk : h k = .freed cfd) (hfree : heap addr = none) :
    Owned base fds (heap.add addr ⟨cfd, peer k⟩) peer (Function.update h k (.begin addr)) where
  owns := by
    have hfd : fds cfd = some (.conn k) := by
      have how := hown.owns k
      rw [hk] at how
      cases how with
      | freed hfd => exact hfd
    refine owns_update hown.owns (.begin (Entries.add_self ..) hfd rfl) fun j _ how => ?_
    exact how.mono (fun p node hp _ => Entries.add_eq_some.2 (.inr ⟨Entries.ne_of_none hfree hp, hp⟩))
      (fun _ hc => hc) fun hh => hh
  heap := by
    intro p node hp
    obtain ⟨rfl, _⟩ | ⟨_, hp⟩ := Entries.add_eq_some.1 hp
    · exact ⟨k, by rw [Function.update_self]; rfl⟩
    · refine arg_update (hown.heap p node hp) fun hk' => ?_
      rw [hk] at hk'
      cases hk'
  conn := hown.conn
  base := hown.base

/-- The thread reads its block. -/
theorem begin (hk : h k = .begin q) (hnode : heap q = some node) :
    Owned base fds heap peer (Function.update h k (.serving q node.cfd node.peer)) where
  owns := by
    refine owns_update hown.owns ?_ fun _ _ how => how
    have how := hown.owns k
    rw [hk] at how
    cases how with
    | begin hnode' hfd hpeer =>
      cases hnode'.symm.trans hnode
      rw [hpeer]
      exact .serving hnode hfd
  heap := fun p node' hp => arg_update (hown.heap p node' hp) fun hk' => by
    rw [hk] at hk'
    exact hk'
  conn := hown.conn
  base := hown.base

/-- `free`. -/
theorem free {p : Peer} (hk : h k = .serving q cfd p) :
    Owned base fds (heap.remove q) peer (Function.update h k (.freed cfd)) where
  owns := by
    have how := hown.owns k
    rw [hk] at how
    cases how with
    | serving hnode hfd =>
      refine owns_update hown.owns (.freed hfd) fun j hj how => ?_
      refine how.mono (fun p node' hp hfd' => Entries.remove_eq_some.2 ⟨?_, hp⟩) (fun _ hc => hc) fun hh => hh
      rintro rfl
      cases hnode.symm.trans hp
      exact hj (File.conn.inj (Option.some.inj (hfd'.symm.trans hfd)))
  heap := by
    intro p node hp
    obtain ⟨hne, hp⟩ := Entries.remove_eq_some.1 hp
    refine arg_update (hown.heap p node hp) fun hk' => ?_
    rw [hk] at hk'
    exact absurd (Option.some.inj hk').symm hne
  conn := hown.conn
  base := hown.base

/-- `close`. -/
theorem close (hk : h k = .freed cfd) : Owned base (fds.remove cfd) heap peer (Function.update h k .ended) where
  owns := by
    have how := hown.owns k
    rw [hk] at how
    cases how with
    | freed hfd =>
      refine owns_update hown.owns (.ended fun hh => ?_) fun j hj how => ?_
      · obtain ⟨c, hne, hc⟩ := Entries.has_remove.1 hh
        exact hne (hown.conn c cfd k hc hfd)
      · refine how.mono (fun _ _ hp _ => hp) (fun c hc => Entries.remove_eq_some.2 ⟨?_, hc⟩) Entries.Has.of_remove
        rintro rfl
        exact hj (File.conn.inj (Option.some.inj (hc.symm.trans hfd)))
  heap := fun p node hp => arg_update (hown.heap p node hp) fun hk' => by
    rw [hk] at hk'
    cases hk'
  conn := fun c c' j hc hc' =>
    hown.conn c c' j (Entries.remove_eq_some.1 hc).2 (Entries.remove_eq_some.1 hc').2
  base := by
    have how := hown.owns k
    rw [hk] at how
    cases how with
    | freed hfd =>
      intro c f hf
      rw [← hown.base c f hf, Entries.remove_eq_some]
      refine ⟨fun hc => hc.2, fun hc => ⟨?_, hc⟩⟩
      rintro rfl
      exact hf k (Option.some.inj (hc.symm.trans hfd))

end Owned

/-! ## The holders -/

/-- What `main` has between `accept` and `pthread_create`. -/
def MainCtrl.pc : MainCtrl → Pc
  | .malloc cfd => .freed cfd
  | .create arg => .begin arg
  | _ => .ended

/-- Thread `k`, or `main` for the connection that comes next. -/
def holder (ctrl : MainCtrl) (threads : List Thread) (k : Nat) : Pc :=
  match threads[k]? with
  | some th => th.pc
  | none => if k = threads.length then ctrl.pc else .ended

theorem holder_thread {ctrl : MainCtrl} {threads : List Thread} (hth : threads[i]? = some th) :
    holder ctrl threads i = th.pc := by rw [holder, hth]

theorem holder_main (ctrl : MainCtrl) (threads : List Thread) : holder ctrl threads threads.length = ctrl.pc := by
  rw [holder, List.getElem?_eq_none (Nat.le_refl _)]
  exact if_pos rfl

/-- `main` goes on. -/
theorem holder_ctrl (ctrl ctrl' : MainCtrl) (threads : List Thread) :
    holder ctrl' threads = Function.update (holder ctrl threads) threads.length ctrl'.pc := by
  funext k
  by_cases hk : k = threads.length
  · subst hk
    rw [Function.update_self, holder_main]
  · rw [Function.update_of_ne hk, holder, holder]
    cases threads[k]? with
    | some th => rfl
    | none => rw [if_neg hk, if_neg hk]

/-- Thread `i` goes on. -/
theorem holder_set {ctrl : MainCtrl} {threads : List Thread} {th' : Thread} (hth : threads[i]? = some th) :
    holder ctrl (threads.set i th') = Function.update (holder ctrl threads) i th'.pc := by
  funext k
  by_cases hk : k = i
  · subst hk
    rw [Function.update_self, holder, List.getElem?_set_self (List.getElem?_eq_some_iff.1 hth).1]
  · rw [Function.update_of_ne hk, holder, holder, List.getElem?_set_ne (Ne.symm hk), List.length_set]

/-- `pthread_create` hands the block over. -/
theorem holder_create {threads : List Thread} (hpc : th.pc = .begin q) :
    holder .detach (threads ++ [th]) = holder (.create q) threads := by
  funext k
  by_cases hlt : k < threads.length
  · rw [holder, holder, List.getElem?_append_left hlt, List.getElem?_eq_getElem hlt]
  · by_cases hk : k = threads.length
    · subst hk
      rw [holder_main, holder, List.getElem?_concat_length]
      exact hpc
    · have hlen : (threads ++ [th]).length ≤ k := by
        rw [List.length_append, List.length_singleton]
        omega
      rw [holder, holder, List.getElem?_eq_none hlen, List.getElem?_eq_none (Nat.le_of_not_lt hlt), if_neg hk]
      exact ite_self _

end SystemFunc.Multithread
