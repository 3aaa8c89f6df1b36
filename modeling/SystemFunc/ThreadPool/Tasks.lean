import SystemFunc.ThreadPool.Account

/-!
# The tasks

What the workers have taken, followed by what is in the queue, is what the callers have put in. `Tasks` says so, and
that no call has failed; `tasks_step` is the step. With the account of the slots, the section of a worker can only be
not possible (`work_disabled`): it finds its slot, and the queue hands it a task.

**`tasks_in_order`** is the result.
-/

namespace SystemFunc.ThreadPool

open CondVar Steps

variable {τ : Type} {R : BusyRate} {s s' : Pool τ}

/-- The tasks put into the queue are those taken from it and those in it, and every call got its task in. -/
structure Tasks (s : Pool τ) : Prop where
  good : s.tp.taskQueue.Good
  order : s.added.map some = s.taken.map some ++ s.tp.taskQueue.items
  success : ∀ c ∈ s.callers, c.pc ≠ .returned threadPoolFailed

namespace Tasks

variable (h : Tasks s)
include h

theorem setCaller {i : Nat} {c : Caller τ} {pc : CallerPc} (hpc : pc ≠ .returned threadPoolFailed) :
    ∀ c' ∈ (setCaller s i c pc).callers, c'.pc ≠ .returned threadPoolFailed := forall_mem_set h.success hpc

theorem wakes {callers : List (Caller τ)} (hw : queueNotFull.Wakes s.callers callers) :
    ∀ c ∈ callers, c.pc ≠ .returned threadPoolFailed :=
  hw.forall (fun _ _ _ => nofun) h.success

/-- The task at the head of the queue is the next of those put in. -/
theorem head (hne : s.tp.taskQueue.items ≠ []) :
    ∃ task, s.tp.taskQueue.plist.getD s.tp.taskQueue.head none = some task := by
  obtain ⟨-, hitems⟩ := h.good.drop hne
  have hmem : s.tp.taskQueue.plist.getD s.tp.taskQueue.head none ∈ s.added.map some := by
    rw [h.order, hitems]
    exact List.mem_append_right _ List.mem_cons_self
  obtain ⟨task, -, htask⟩ := List.mem_map.1 hmem
  exact ⟨task, htask.symm⟩

end Tasks

/-- **A step keeps the order of the tasks.** -/
theorem tasks_step {a : Act τ} (h : Tasks s) (hstep : step R s a = some s') : Tasks s' := by
  cases step_moves hstep with
  | again => exact ⟨h.good, h.order, h.success⟩
  | quit => exact ⟨h.good, h.order, h.success⟩
  | ctrlReturn => exact ⟨h.good, h.order, h.success⟩
  | tick _ _ hr =>
    have ht := tick_ticked hr
    refine ⟨ht.taskQueue ▸ h.good, ?_, ?_⟩
    · rw [ht.added, ht.taken, ht.taskQueue]
      exact h.order
    · rw [ht.callers]
      split
      · exact h.wakes broadcast_wakes
      · exact h.success
  | sleep => exact ⟨h.good, h.order, h.success⟩
  | leave => exact ⟨h.good, h.order, h.success⟩
  | @take i pick w task callers _ _ _ hne ht hs =>
    obtain ⟨hg, hitems⟩ := h.good.drop hne
    refine ⟨hg, ?_, h.wakes (signal_wakes hs)⟩
    show s.added.map some = (s.taken ++ [task]).map some ++ _
    rw [h.order, hitems, ht, List.map_append, List.append_assoc]
    rfl
  | done => exact ⟨h.good, h.order, h.success⟩
  | call task =>
    refine ⟨?_, ?_, forall_call h.success (fun _ => nofun) task⟩
    · cases task <;> exact h.good
    · cases task <;> exact h.order
  | addWait => exact ⟨h.good, h.order, h.setCaller nofun⟩
  | addShutdown => exact ⟨h.good, h.order, h.setCaller (by decide)⟩
  | @addPut i pick c workers _ _ hf =>
    obtain ⟨hg, hitems⟩ := h.good.put hf c.task
    refine ⟨hg, ?_, h.setCaller (by decide)⟩
    show (s.added ++ [c.task]).map some = s.taken.map some ++ (s.tp.taskQueue.put c.task).items
    rw [hitems, List.map_append, h.order, List.append_assoc]
    rfl
  | spuriousWorker => exact ⟨h.good, h.order, h.success⟩
  | spuriousCaller hc => exact ⟨h.good, h.order, h.wakes (signal_wakes hc)⟩

theorem tasks_init (h : Init s) : Tasks s where
  good := h.started.good
  order := by rw [h.started.added, h.started.taken, h.started.items]; rfl
  success := by rw [h.started.callers]; nofun

theorem tasks_reach (h : Reach Init (step R) s) : Tasks s := h.inv (fun _ => tasks_init) fun _ _ _ => tasks_step

/-! ## No error branch -/

/-- The only way in which a section can fail. -/
theorem answered_error {β : Type} {o : Option β} {e : Stop} (h : answered o = .error e) : e = .disabled := by
  cases o with
  | none => cases h; rfl
  | some b => cases h

/-- Past the loop, a worker finds its slot or gets a task. -/
theorem afterLoop_disabled (ha : Account s.tp s.workers) (ht : Tasks s) {i : Nat} {pick : Option Nat} {w : Worker τ}
    {e : Stop} (hw : s.workers[i]? = some w) (hl : w.looking) (hp : mustExit s.tp = true ∨ s.tp.taskQueue.items ≠ [])
    (he : afterLoop s i w pick = .error e) : e = .disabled := by
  unfold afterLoop at he
  by_cases hx : mustExit s.tp = true
  · obtain ⟨idx, hf, -⟩ := ha.findTidIdx_ok (List.mem_of_getElem? hw) (Worker.live_of_looking hl)
    rw [if_pos hx, hf] at he
    have hok : (if (idx : Int) = -1 then .error (Stop.exit EINVAL "work_thread_handler(FindTidIdx)")
        else .ok (leave s i w (idx : Int).toNat)) = Except.ok (leave s i w idx) := if_neg (by omega)
    cases hok.symm.trans he
  · have hne := hp.resolve_left hx
    obtain ⟨task, hhead⟩ := ht.head hne
    rw [if_neg hx, dequeue_nonempty hne, hhead] at he
    cases hc : answered (queueNotFull.signal s.callers pick) with
    | error e' =>
      rw [hc] at he
      cases he
      exact answered_error hc
    | ok callers => rw [hc] at he; cases he

/-- **The section of a worker** does not leave the process. -/
theorem work_disabled (ha : Account s.tp s.workers) (ht : Tasks s) {i : Nat} {pick : Option Nat} {e : Stop}
    (he : act R s (.work i pick) = .error e) : e = .disabled := by
  have he' : workSection s i pick = .error e := he
  unfold workSection at he'
  split at he'
  · cases he'; rfl
  · rename_i w hw
    split at he'
    · rename_i hpc
      split at he'
      · cases he'
      · rename_i hm
        refine afterLoop_disabled ha ht hw (.inl hpc) ?_ he'
        rw [mustWait_eq_true, not_and] at hm
        by_cases hitems : s.tp.taskQueue.items = []
        · exact .inl (mustExit_eq_true.2 (.inl (by simpa using hm hitems)))
        · exact .inr hitems
    · rename_i hpc
      split at he'
      · rename_i hx
        exact afterLoop_disabled ha ht hw (.inr hpc) (.inl hx) he'
      · rename_i hx
        split at he'
        · cases he'
        · rename_i hm
          exact afterLoop_disabled ha ht hw (.inr hpc)
            (.inr (items_ne_nil_of_stay (Bool.eq_false_iff.2 hx) (Bool.eq_false_iff.2 hm))) he'
    · cases he'; rfl

/-- **Tasks are neither lost, nor handed out twice, nor reordered**: what the workers took is the first part of what
the callers put in, and the queue holds the rest. No section of a worker comes to an error branch, and no call with a
task fails. -/
theorem tasks_in_order (h : Reach Init (step R) s) :
    s.added.map some = s.taken.map some ++ s.tp.taskQueue.items ∧
      (∀ i pick e, act R s (.work i pick) = .error e → e = .disabled) ∧
      ∀ c ∈ s.callers, c.pc ≠ .returned threadPoolFailed :=
  ⟨(tasks_reach h).order, fun _ _ _ => work_disabled (account_reach h) (tasks_reach h), (tasks_reach h).success⟩

theorem tasks_in_order_expanded : expanded.added.map some = expanded.taken.map some ++ expanded.tp.taskQueue.items ∧
    (∀ i pick e, act ieeeRate expanded (.work i pick) = .error e → e = .disabled) ∧
    ∀ c ∈ expanded.callers, c.pc ≠ .returned threadPoolFailed := tasks_in_order expanded_reach

end SystemFunc.ThreadPool
