import SystemFunc.Lib.Crowd
import SystemFunc.Lib.Steps
import SystemFunc.ShmQueue.Defs

/-!
# Starting the processes: `GetShmId` and `main`

Processes with one key start in any order; each `shmget`, `shmat`, `sem_init` and `queue_init` and each operation of
the loops is one step. `shmget` finds the segment of the key, or answers `ENOENT` where there is none, or makes one
(all zero bytes) where it is asked to create. `SIGQUIT` removes the segment from the key.

`XSI_IPC/shm.c` starts in the same way, with a mutex and a pid field in place of the semaphores and the queue.

A segment carries how many initializations of it have begun, whether one has completed, and how many semaphore and
queue operations came before that.

- `init_once`: where no create finds a segment and nobody attaches in `main` before the initialization is complete,
  every segment is initialized once, before its use;
- `init_twice`: without these conditions neither holds.
-/

namespace SystemFunc.ShmQueue

variable {α : Type*}

/-- What a process is about to do in `GetShmId` or `main`. -/
inductive Stage where
  | probe
  | create
  | initAttach
  | initSpace
  | initProduct
  | initQueue
  | initDetach
  | attach
  | loop
  | exited (headStr : String)
  deriving DecidableEq

/-- The initializations of its segment that a process inside the initialization has begun. -/
def Stage.begun : Stage → Option Nat
  | .initAttach | .initSpace => some 0
  | .initProduct | .initQueue => some 1
  | _ => none

/-- `perror` and `exit` when the call fails; `shmdt` is not tested. -/
def Stage.perror : Stage → Option String
  | .probe | .create => some "shmget error"
  | .initAttach => some "init data error, shmat"
  | .initSpace | .initProduct => some "sem_init error"
  | .attach => some "shmat failed"
  | _ => none

structure Starter (α : Type*) where
  stage : Stage
  shmid : Nat
  proc : Proc α

structure Shm (α : Type*) where
  seg : Segment α
  inits : Nat
  ready : Bool
  early : Nat

/-- A new segment. -/
def Shm.new (zero : α) : Shm α where
  seg := { semPair := { semSpace := 0, semProduct := 0 }
           queue := { front := 0, rear := 0, size := 0, arr := List.replicate QUEUE_MAX_SIZE zero } }
  inits := 0
  ready := false
  early := 0

/-- The segments by their ids, the id of the segment of the key, and the processes. -/
structure World (θ α : Type*) where
  shms : List (Shm α)
  cur : Option Nat
  procs : θ → Starter α

inductive Act (θ : Type*) where
  | next (t : θ)
  | fail (t : θ)
  | sigQuit (t : θ)

section System

variable {θ : Type*} [DecidableEq θ]

/-- Process `t` becomes `p`, and its segment is changed by `f`. -/
def World.put (w : World θ α) (t : θ) (p : Starter α) (f : Shm α → Shm α) : World θ α :=
  { w with shms := w.shms.modify p.shmid f, procs := Function.update w.procs t p }

/-- The next step of process `t`, with the call in it successful. -/
def next (zero : α) (sprintf : θ → Nat → α) (w : World θ α) (t : θ) : Option (World θ α) :=
  let p := w.procs t
  match p.stage with
  | .probe =>
    match w.cur with
    | none => some (w.put t { p with stage := .create } id)
    | some shmid => some (w.put t { p with stage := .attach, shmid := shmid } id)
  | .create =>
    match w.cur with
    | none => some
        { shms := w.shms ++ [Shm.new zero]
          cur := some w.shms.length
          procs := Function.update w.procs t { p with stage := .initAttach, shmid := w.shms.length } }
    | some shmid => some (w.put t { p with stage := .initAttach, shmid := shmid } id)
  | .initAttach => some (w.put t { p with stage := .initSpace } id)
  | .initSpace => some (w.put t { p with stage := .initProduct } fun shm =>
      { shm with seg.semPair.semSpace := QUEUE_MAX_SIZE, inits := shm.inits + 1 })
  | .initProduct => some (w.put t { p with stage := .initQueue } fun shm =>
      { shm with seg.semPair.semProduct := 0 })
  | .initQueue => some (w.put t { p with stage := .initDetach } fun shm =>
      match queueInit zero (some shm.seg.queue) with
      | .ok queue => { shm with seg.queue := queue, ready := true }
      | .error _ => shm)
  | .initDetach => some (w.put t { p with stage := .attach } id)
  | .attach => w.shms[p.shmid]?.map fun _ => w.put t { p with stage := .loop } id
  | .loop => w.shms[p.shmid]?.bind fun shm => (procStep (sprintf t) shm.seg p.proc).map fun r =>
    w.put t { p with proc := r.2.1 } fun shm =>
      { shm with seg := r.1, early := if shm.ready || p.proc.pc = .format then shm.early else shm.early + 1 }
  | .exited _ => none

/-- One step of the system. The handler of `SIGQUIT` is installed when `GetShmId` has returned. -/
def startStep (zero : α) (sprintf : θ → Nat → α) (w : World θ α) : Act θ → Option (World θ α)
  | .next t => next zero sprintf w t
  | .fail t => (w.procs t).stage.perror.map fun headStr => w.put t { w.procs t with stage := .exited headStr } id
  | .sigQuit t =>
    let p := w.procs t
    if p.stage = .attach ∨ p.stage = .loop then
      some { w with cur := if w.cur = some p.shmid then none else w.cur }
    else none

/-- No segment, and every process about to start. -/
def StartInit (w : World θ α) : Prop :=
  w.shms = [] ∧ w.cur = none ∧ ∀ t, ∃ mode elem, w.procs t = { stage := .probe, shmid := 0, proc := .start mode elem }

/-- No segment has begun to be initialized twice or been used before that was complete. -/
def InitOnce (w : World θ α) : Prop := ∀ shm ∈ w.shms, shm.inits ≤ 1 ∧ shm.early = 0

/-- The create does not find a segment, and `main` attaches a segment whose initialization is complete. -/
def StartsWell (w : World θ α) : Act θ → Prop
  | .next t =>
    ((w.procs t).stage = .create → w.cur = none) ∧
      ((w.procs t).stage = .attach → ∀ shm ∈ w.shms[(w.procs t).shmid]?, shm.ready = true)
  | _ => True

/-! ## Initialized once, before use -/

/-- What holds of the segment of a process. -/
structure Starter.Ok (shms : List (Shm α)) (p : Starter α) : Prop where
  begun : ∀ n, p.stage.begun = some n → ∃ shm, shms[p.shmid]? = some shm ∧ shm.inits = n
  loop : p.stage = .loop → ∃ shm, shms[p.shmid]? = some shm ∧ shm.ready = true

/-- The process is inside the initialization of segment `i`. -/
def Starter.Initializing (i : Nat) (p : Starter α) : Prop := p.stage.begun.isSome ∧ p.shmid = i

/-- Every segment is initialized by one process at most, and used by processes that found it complete. -/
structure StartInv (w : World θ α) : Prop where
  once : InitOnce w
  procs : ∀ t, (w.procs t).Ok w.shms
  owner : ∀ t u, (w.procs t).stage.begun.isSome → (w.procs u).stage.begun.isSome →
    (w.procs t).shmid = (w.procs u).shmid → t = u

omit [DecidableEq θ] in
theorem startInv_init {w : World θ α} (h : StartInit w) : StartInv w := by
  obtain ⟨hshms, -, hp⟩ := h
  have hstage : ∀ t, (w.procs t).stage = .probe := fun t => by obtain ⟨m, e, ht⟩ := hp t; rw [ht]
  refine ⟨by simp [InitOnce, hshms], fun t => ⟨?_, ?_⟩, fun t u ht => ?_⟩
  · simp [hstage, Stage.begun]
  · simp [hstage]
  · simp [hstage, Stage.begun] at ht

/-- What a step may do to a segment, seen by the processes at it: the initializations begun stay as they are unless
the process itself initializes, and a complete one stays complete. -/
structure Shm.Change (owner : Bool) (shm shm' : Shm α) : Prop where
  inits : owner = false → shm'.inits = shm.inits
  ready : shm.ready = true → shm'.ready = true
  once : shm'.inits ≤ 1 ∧ shm'.early = 0

/-- A step that changes one process and its segment. -/
theorem startInv_put {w : World θ α} (h : StartInv w) {t : θ} {p : Starter α} {f : Shm α → Shm α}
    (hf : ∀ shm, w.shms[p.shmid]? = some shm → shm.inits ≤ 1 ∧ shm.early = 0 →
      Shm.Change (w.procs t).stage.begun.isSome shm (f shm))
    (hshmid : (w.procs t).stage.begun.isSome → p.shmid = (w.procs t).shmid)
    (hbegun : p.stage.begun.isSome → (w.procs t).stage.begun.isSome)
    (hp : p.Ok (w.shms.modify p.shmid f)) : StartInv (w.put t p f) := by
  have hget : ∀ i shm, w.shms[i]? = some shm → ∃ shm', (w.shms.modify p.shmid f)[i]? = some shm' ∧
      (shm.ready = true → shm'.ready = true) ∧
        (i ≠ p.shmid ∨ (w.procs t).stage.begun.isSome = false → shm'.inits = shm.inits) := by
    intro i shm hi
    by_cases he : i = p.shmid
    · subst he
      have hc := hf shm hi (h.once shm (List.mem_of_getElem? hi))
      exact ⟨f shm, by simp [hi], hc.ready, fun ho => hc.inits (ho.resolve_left (· rfl))⟩
    · exact ⟨shm, by simp [hi, Ne.symm he], id, fun _ => rfl⟩
  refine ⟨?_, ?_, ?_⟩
  · intro shm hmem
    obtain ⟨i, hi⟩ := List.mem_iff_getElem?.1 hmem
    simp only [World.put, List.getElem?_modify, Option.map_eq_map, Option.map_eq_some_iff] at hi
    obtain ⟨shm₀, h₀, rfl⟩ := hi
    have ho := h.once shm₀ (List.mem_of_getElem? h₀)
    split
    · rename_i he
      exact (hf shm₀ (he ▸ h₀) ho).once
    · exact ho
  · intro u
    simp only [World.put]
    by_cases hu : u = t
    · subst hu
      simpa using hp
    · rw [Function.update_of_ne hu]
      refine ⟨fun n hn => ?_, fun hl => ?_⟩
      · obtain ⟨shm, hs, hn'⟩ := (h.procs u).begun n hn
        obtain ⟨shm', hs', -, hin⟩ := hget _ shm hs
        refine ⟨shm', hs', ?_⟩
        rw [hin, hn']
        -- two processes inside the initialization have different segments
        by_contra hc
        push Not at hc
        have ht : (w.procs t).stage.begun.isSome := Option.isSome_iff_ne_none.2 (by simpa using hc.2)
        exact hu (h.owner u t (by simp [hn]) ht (hc.1.trans (hshmid ht)))
      · obtain ⟨shm, hs, hr⟩ := (h.procs u).loop hl
        obtain ⟨shm', hs', hr', -⟩ := hget _ shm hs
        exact ⟨shm', hs', hr' hr⟩
  · intro u v hu hv he
    apply Crowd.unique_update (P := Starter.Initializing ((w.put t p f).procs v).shmid)
      (fun u v hu hv => h.owner u v hu.1 hv.1 (hu.2.trans hv.2.symm)) ?_ u v ⟨hu, he⟩ ⟨hv, rfl⟩
    intro hp u hne hu
    have ht := hbegun hp.1
    exact hne (h.owner u t hu.1 ht (hu.2.trans (hp.2.symm.trans (hshmid ht))))

/-- A step that leaves the segments alone. -/
theorem startInv_put_id {w : World θ α} (h : StartInv w) {t : θ} {p : Starter α}
    (hshmid : (w.procs t).stage.begun.isSome → p.shmid = (w.procs t).shmid)
    (hbegun : p.stage.begun.isSome → p.stage.begun = (w.procs t).stage.begun)
    (hloop : p.stage = .loop → ∃ shm, w.shms[p.shmid]? = some shm ∧ shm.ready = true) : StartInv (w.put t p id) := by
  refine startInv_put h (fun shm _ ho => ⟨fun _ => rfl, id, ho⟩) hshmid (fun hb => hbegun hb ▸ hb) ⟨?_, ?_⟩
  · intro n hn
    have hb : (w.procs t).stage.begun = some n := (hbegun (by simp [hn])).symm.trans hn
    rw [hshmid (by simp [hb])]
    simpa using (h.procs t).begun n hb
  · simpa using hloop

/-- The segment is new: nobody else is at it. -/
theorem startInv_new {zero : α} {w : World θ α} (h : StartInv w) {t : θ} {p : Starter α} {cur : Option Nat}
    (hstage : p.stage = .initAttach) (hshmid : p.shmid = w.shms.length) :
    StartInv { shms := w.shms ++ [Shm.new zero], cur := cur, procs := Function.update w.procs t p } := by
  have hold : ∀ i shm, w.shms[i]? = some shm → (w.shms ++ [Shm.new zero])[i]? = some shm := fun i shm hi => by
    rw [List.getElem?_append_left (List.getElem?_eq_some_iff.1 hi).1, hi]
  have hlt : ∀ u, (w.procs u).stage.begun.isSome → (w.procs u).shmid < w.shms.length := fun u hu => by
    obtain ⟨n, hn⟩ := Option.isSome_iff_exists.1 hu
    obtain ⟨shm, hs, -⟩ := (h.procs u).begun n hn
    exact (List.getElem?_eq_some_iff.1 hs).1
  refine ⟨?_, fun u => ?_, fun u v hu hv he => ?_⟩
  · intro shm hmem
    rcases List.mem_append.1 hmem with hm | hm
    · exact h.once shm hm
    · rw [List.mem_singleton.1 hm]
      exact ⟨Nat.zero_le _, rfl⟩
  · by_cases hu : u = t
    · subst hu
      refine ⟨fun n hn => ⟨Shm.new zero, ?_, ?_⟩, fun hl => ?_⟩
      · simp [hshmid]
      · simpa [hstage, Stage.begun, Shm.new] using hn
      · simp [hstage] at hl
    · simp only [Function.update_of_ne hu]
      refine ⟨fun n hn => ?_, fun hl => ?_⟩
      · obtain ⟨shm, hs, hn'⟩ := (h.procs u).begun n hn
        exact ⟨shm, hold _ _ hs, hn'⟩
      · obtain ⟨shm, hs, hr⟩ := (h.procs u).loop hl
        exact ⟨shm, hold _ _ hs, hr⟩
  · apply Crowd.unique_update (P := Starter.Initializing (Function.update w.procs t p v).shmid)
      (fun u v hu hv => h.owner u v hu.1 hv.1 (hu.2.trans hv.2.symm)) ?_ u v ⟨hu, he⟩ ⟨hv, rfl⟩
    intro hp u _ hu
    have hless := hlt u hu.1
    rw [hu.2, ← hp.2, hshmid] at hless
    exact Nat.lt_irrefl _ hless

/-- A step of the initialization: the process knows how many have begun before. -/
theorem startInv_init_step {w : World θ α} (h : StartInv w) {t : θ} {n : Nat} {stage : Stage} {f : Shm α → Shm α}
    (hn : (w.procs t).stage.begun = some n)
    (hf : ∀ shm : Shm α, shm.inits = n → shm.early = 0 → (f shm).early = 0 ∧ (f shm).inits ≤ 1 ∧
      (shm.ready = true → (f shm).ready = true) ∧ ∀ m, stage.begun = some m → (f shm).inits = m)
    (hloop : stage ≠ .loop) : StartInv (w.put t { w.procs t with stage := stage } f) := by
  obtain ⟨shm₀, h₀, hn₀⟩ := (h.procs t).begun n hn
  refine startInv_put h (fun shm hs ho => ?_) (fun _ => rfl) (fun _ => by simp [hn]) ⟨fun m hm => ?_, fun hl => ?_⟩
  · have he : shm = shm₀ := Option.some.inj (hs.symm.trans h₀)
    obtain ⟨h1, h2, h3, -⟩ := hf shm (he ▸ hn₀) ho.2
    exact ⟨fun hno => by simp [hn] at hno, h3, h2, h1⟩
  · have ho := h.once shm₀ (List.mem_of_getElem? h₀)
    exact ⟨f shm₀, by simp [h₀], (hf shm₀ hn₀ ho.2).2.2.2 m hm⟩
  · exact absurd hl hloop

theorem startInv_next {zero : α} {sprintf : θ → Nat → α} {w w' : World θ α} {t : θ} (h : StartInv w)
    (hc : StartsWell w (.next t)) (hs : next zero sprintf w t = some w') : StartInv w' := by
  unfold next at hs
  cases hst : (w.procs t).stage with
  | probe =>
    simp only [hst] at hs
    split at hs <;> cases hs
    all_goals exact startInv_put_id h (by simp [hst, Stage.begun]) (by simp [Stage.begun]) nofun
  | create =>
    simp only [hst, hc.1 hst] at hs
    cases hs
    exact startInv_new h rfl rfl
  | initAttach =>
    simp only [hst] at hs
    cases hs
    exact startInv_put_id h (fun _ => rfl) (fun _ => by simp [hst, Stage.begun]) nofun
  | initSpace =>
    simp only [hst] at hs
    cases hs
    refine startInv_init_step h (n := 0) (by simp [hst, Stage.begun]) (fun shm h0 he => ?_) nofun
    exact ⟨he, by simp [h0], id, by simp [Stage.begun, h0]⟩
  | initProduct =>
    simp only [hst] at hs
    cases hs
    refine startInv_init_step h (n := 1) (by simp [hst, Stage.begun]) (fun shm h1 he => ?_) nofun
    exact ⟨he, by simp [h1], id, by simp [Stage.begun, h1]⟩
  | initQueue =>
    simp only [hst] at hs
    cases hs
    refine startInv_init_step h (n := 1) (by simp [hst, Stage.begun]) (fun shm h1 he => ?_) nofun
    exact ⟨he, by simp [queueInit, h1], fun _ => rfl, by simp [Stage.begun]⟩
  | initDetach =>
    simp only [hst] at hs
    cases hs
    exact startInv_put_id h (by simp [hst, Stage.begun]) (by simp [Stage.begun]) nofun
  | attach =>
    simp only [hst, Option.map_eq_some_iff] at hs
    obtain ⟨shm, h₀, rfl⟩ := hs
    refine startInv_put_id h (fun _ => rfl) (by simp [Stage.begun]) fun _ => ⟨shm, h₀, hc.2 hst shm h₀⟩
  | loop =>
    simp only [hst, Option.bind_eq_some_iff, Option.map_eq_some_iff] at hs
    obtain ⟨shm₀, h₀, r, -, rfl⟩ := hs
    obtain ⟨shm, h₁, hready⟩ := (h.procs t).loop hst
    have he : shm = shm₀ := Option.some.inj (h₁.symm.trans h₀)
    subst he
    refine startInv_put h (fun shm' hs' ho => ?_) (fun _ => rfl) (by simp [Stage.begun]) ⟨?_, ?_⟩
    · have he : shm' = shm := Option.some.inj (hs'.symm.trans h₁)
      subst he
      exact ⟨fun _ => rfl, id, ho.1, by simp [hready, ho.2]⟩
    · simp [Stage.begun]
    · intro _
      simp [h₁, hready]
  | exited msg => simp [hst] at hs

theorem startInv_step {zero : α} {sprintf : θ → Nat → α} {w w' : World θ α} {a : Act θ} (h : StartInv w)
    (hc : StartsWell w a) (hs : startStep zero sprintf w a = some w') : StartInv w' := by
  cases a with
  | next t => exact startInv_next h hc hs
  | fail t =>
    simp only [startStep, Option.map_eq_some_iff] at hs
    obtain ⟨msg, -, rfl⟩ := hs
    exact startInv_put_id h (fun _ => rfl) (by simp [Stage.begun]) nofun
  | sigQuit t =>
    simp only [startStep, Option.ite_none_right_eq_some, Option.some.injEq] at hs
    obtain ⟨-, rfl⟩ := hs
    exact ⟨h.once, h.procs, h.owner⟩

/-- **Initialized once, before use**: in every run in which no create finds a segment and nobody attaches one in `main`
whose initialization is not complete. -/
theorem init_once {zero : α} {sprintf : θ → Nat → α} {w : World θ α} {as : List (Act θ)} (hw : StartInit w)
    (hm : Steps.Meets (startStep zero sprintf) StartsWell w as) : Steps.Along (startStep zero sprintf) InitOnce w as :=
  (Steps.along_of_meets (I := fun _ => True) (fun _ _ _ _ _ => trivial) (fun _ _ _ _ hp hc => startInv_step hp hc)
    trivial (startInv_init hw) hm).mono fun _ h => h.once

end System

/-! ## Producers start -/

/-- No segment yet, and every process is a producer; processes `0` and `1` move below. -/
def twoStarting : World Nat Nat where
  shms := []
  cur := none
  procs _ := { stage := .probe, shmid := 0, proc := .start .producer 7 }

theorem twoStarting_init : StartInit twoStarting := ⟨rfl, rfl, fun _ => ⟨.producer, 7, rfl⟩⟩

/-- Process `0` creates and initializes the segment and attaches it, then process `1` finds it and both produce. -/
def orderedStart : List (Act Nat) :=
  [.next 0, .next 0, .next 0, .next 0, .next 0, .next 0, .next 0, .next 0, .next 1, .next 1,
    .next 0, .next 1, .next 0, .next 1]

/-- Both find no segment, and both create and initialize it. -/
def doubleStart : List (Act Nat) :=
  [.next 0, .next 1, .next 0, .next 1, .next 0, .next 1, .next 0, .next 1]

/-- Process `1` finds the segment of process `0` after `sem_init` of `sem_space` and waits for it before the
initialization is complete. -/
def earlyStart : List (Act Nat) :=
  [.next 0, .next 0, .next 0, .next 0, .next 1, .next 1, .next 1, .next 1]

instance (w : World Nat Nat) : DecidablePred (StartsWell w)
  | .next t => inferInstanceAs (Decidable (((w.procs t).stage = .create → w.cur = none) ∧
      ((w.procs t).stage = .attach → ∀ shm ∈ w.shms[(w.procs t).shmid]?, shm.ready = true)))
  | .fail _ => inferInstanceAs (Decidable True)
  | .sigQuit _ => inferInstanceAs (Decidable True)

theorem init_once_orderedStart : Steps.Along (startStep 0 fun _ id => id) InitOnce twoStarting orderedStart :=
  init_once twoStarting_init (by decide)

/-- **Initialized twice, and used before the initialization is complete.** -/
theorem init_twice :
    StartInit twoStarting ∧
      (∃ w, Steps.run (startStep 0 fun _ id => id) twoStarting doubleStart = some w ∧ ¬InitOnce w) ∧
      ∃ w, Steps.run (startStep 0 fun _ id => id) twoStarting earlyStart = some w ∧ ¬InitOnce w :=
  ⟨twoStarting_init, ⟨_, rfl, fun h => absurd (h _ (.head _)).1 (by decide)⟩,
    _, rfl, fun h => absurd (h _ (.head _)).2 (by decide)⟩

end SystemFunc.ShmQueue
