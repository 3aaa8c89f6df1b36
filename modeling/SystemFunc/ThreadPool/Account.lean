import SystemFunc.Lib.Slots
import SystemFunc.ThreadPool.Moves

/-!
# The counters and the slots

`Account` relates the counters and the slots of the record to the workers. Every section keeps it:

- `Account.spawn`, `Account.leave`: a worker starts in an unused slot, and leaves from its own;
- `Account.move`: a worker moves on, with or without a task;
- `expandLoop_account`: as long as `cur_thread_cnt` stays below `max_thread_cnt`, the loop finds unused slots;
- `account_step`, `account_init`: the steps and the start.

**`accounting`** is the result. The block of the slots can be shorter than `max_thread_cnt` when that is `2^29` or more
(`byte_cnt` is an `int`); a search that runs out of the block is undefined and ends the run.
-/

namespace SystemFunc.ThreadPool

open CondVar Slots Steps

variable {τ : Type} {R : BusyRate} {s s' : Pool τ} {tp tp' : ThreadPoolT τ} {ws us : List (Worker τ)}

/-! ## Searching the slots -/

section Scan

variable {l : List Nat} {tid : Nat}

/-- A search that answers has seen all the slots in vain, or found one. -/
theorem tidScan_ok {r : Int} : ∀ {left idx}, tidScan l tid left idx = .ok r →
    r = -1 ∧ (∀ j, idx ≤ j → j < idx + left → ∃ t, l[j]? = some t ∧ t ≠ tid) ∨ ∃ j : Nat, r = j ∧ l[j]? = some tid
  | 0, _, h => by
    cases h
    exact .inl ⟨rfl, fun j h1 h2 => by omega⟩
  | left + 1, idx, h => by
    unfold tidScan at h
    cases ht : l[idx]? with
    | none => rw [ht] at h; cases h
    | some t =>
      rw [ht] at h
      dsimp only at h
      split at h
      · rename_i he
        cases h
        exact .inr ⟨idx, rfl, by rw [ht, he]⟩
      · rename_i hne
        rcases tidScan_ok h with ⟨hr, hall⟩ | hfound
        · refine .inl ⟨hr, fun j h1 h2 => ?_⟩
          rcases Nat.eq_or_lt_of_le h1 with rfl | h1
          · exact ⟨t, ht, hne⟩
          · exact hall j h1 (by omega)
        · exact .inr hfound

/-- The search finds what is there. -/
theorem tidScan_finds {j : Nat} (hj : l[j]? = some tid) : ∀ {left idx}, idx ≤ j → j < idx + left →
    ∃ k : Nat, tidScan l tid left idx = .ok k ∧ l[k]? = some tid
  | 0, _, h1, h2 => by omega
  | left + 1, idx, h1, h2 => by
    obtain ⟨hlen, -⟩ := List.getElem?_eq_some_iff.1 hj
    have hidx : l[idx]? = some l[idx] := List.getElem?_eq_getElem (by omega)
    unfold tidScan
    rw [hidx]
    dsimp only
    split
    · rename_i he
      exact ⟨idx, rfl, by rw [hidx, he]⟩
    · rename_i hne
      have hlt : idx ≠ j := by
        rintro rfl
        rw [hidx] at hj
        exact hne (Option.some.inj hj)
      exact tidScan_finds hj (by omega) (by omega)

end Scan

/-! ## The invariant -/

/-- The id in a slot. -/
def slotId (tid : Nat) : Option Nat := if tid = 0 then none else some tid

/-- The id of a live worker. -/
def Worker.ident (w : Worker τ) : Option Nat := if w.live then some w.tid else none

theorem slotId_of_ne {tid : Nat} (h : tid ≠ 0) : slotId tid = some tid := if_neg h

theorem slotId_isSome (tid : Nat) : (slotId tid).isSome = decide (tid ≠ 0) := by
  unfold slotId
  by_cases h : tid = 0 <;> simp [h]

theorem Worker.ident_of_live {w : Worker τ} (h : w.live = true) : w.ident = some w.tid := if_pos h

theorem Worker.ident_isSome (w : Worker τ) : w.ident.isSome = w.live := by
  unfold Worker.ident
  cases w.live <;> rfl

theorem Worker.live_of_looking {w : Worker τ} (h : w.looking) : w.live = true := by
  rcases h with h | h <;> simp [Worker.live, h]

theorem Worker.not_busy_of_looking {w : Worker τ} (h : w.looking) : w.busy = false := by
  rcases h with h | h <;> simp [Worker.busy, h]

theorem Worker.live_of_busy {w : Worker τ} (h : w.busy = true) : w.live = true := by
  obtain ⟨tid, pc⟩ := w
  cases pc with
  | run => rfl
  | _ => cases h

/-- The counters count the workers, and the slots hold the ids of the live ones. -/
structure Account (tp : ThreadPoolT τ) (ws : List (Worker τ)) : Prop where
  registered : Registered slotId Worker.ident tp.tidList ws
  tid_ne_zero : ∀ w ∈ ws, w.tid ≠ 0
  live : ws.countP Worker.live = tp.curThreadCnt
  busy : ws.countP Worker.busy = tp.actThreadCnt
  cur_le : tp.curThreadCnt ≤ tp.maxThreadCnt
  max_lt : tp.maxThreadCnt < 2 ^ 32
  wait_lt : tp.waitExitThreadCnt < 2 ^ 32
  slots_le : tp.tidList.length ≤ tp.maxThreadCnt
  slots_lt : tp.tidList.length < 2 ^ 28

theorem busy_le_live (ws : List (Worker τ)) : ws.countP Worker.busy ≤ ws.countP Worker.live :=
  List.countP_mono_left fun _ _ h => Worker.live_of_busy h

theorem countP_live (ws : List (Worker τ)) : ws.countP Worker.live = (ws.filterMap Worker.ident).length := by
  rw [List.length_filterMap_eq_countP]
  exact List.countP_congr fun w _ => by rw [Worker.ident_isSome]

theorem countP_slots (l : List Nat) : l.countP (· ≠ 0) = (l.filterMap slotId).length := by
  rw [List.length_filterMap_eq_countP]
  exact List.countP_congr fun t _ => by rw [slotId_isSome]

theorem count_slots (l : List Nat) {tid : Nat} (h : tid ≠ 0) : l.count tid = (l.filterMap slotId).count tid := by
  induction l with
  | nil => rfl
  | cons t l ih =>
    by_cases h0 : t = 0
    · subst h0
      rw [List.filterMap_cons_none (show slotId 0 = none from rfl), List.count_cons_of_ne (Ne.symm h), ih]
    · rw [List.filterMap_cons_some (slotId_of_ne h0), List.count_cons, List.count_cons, ih]

namespace Account

theorem act_le (h : Account tp ws) : tp.actThreadCnt ≤ tp.curThreadCnt := by
  rw [← h.busy, ← h.live]
  exact busy_le_live ws

theorem cur_lt (h : Account tp ws) : tp.curThreadCnt < 2 ^ 32 := Nat.lt_of_le_of_lt h.cur_le h.max_lt

/-- The slots in use are as many as the live workers. -/
theorem used (h : Account tp ws) : tp.tidList.countP (· ≠ 0) = tp.curThreadCnt := by
  rw [countP_slots, h.registered.perm.length_eq, ← countP_live, h.live]

theorem cur_le_slots (h : Account tp ws) : tp.curThreadCnt ≤ tp.tidList.length := by
  rw [← h.used]
  exact List.countP_le_length

theorem cur_pos (h : Account tp ws) {w : Worker τ} (hw : w ∈ ws) (hl : w.live = true) : 0 < tp.curThreadCnt := by
  rw [← h.live]
  exact List.countP_pos_iff.2 ⟨w, hw, hl⟩

theorem act_pos (h : Account tp ws) {w : Worker τ} (hw : w ∈ ws) (hb : w.busy = true) : 0 < tp.actThreadCnt := by
  rw [← h.busy]
  exact List.countP_pos_iff.2 ⟨w, hw, hb⟩

theorem not_live (h : Account tp ws) (h0 : tp.curThreadCnt = 0) {w : Worker τ} (hw : w ∈ ws) : w.live = false :=
  Bool.eq_false_iff.2 fun hl => Nat.ne_of_gt (h.cur_pos hw hl) h0

theorem count_eq_one (h : Account tp ws) {w : Worker τ} (hw : w ∈ ws) (hl : w.live = true) :
    tp.tidList.count w.tid = 1 := by
  rw [count_slots _ (h.tid_ne_zero w hw)]
  exact h.registered.count_eq_one hw (Worker.ident_of_live hl)

/-- `FindTidIdx` finds the slot of a live worker. -/
theorem findTidIdx_ok (h : Account tp ws) {w : Worker τ} (hw : w ∈ ws) (hl : w.live = true) :
    ∃ idx : Nat, findTidIdx (some tp) w.tid = .ok idx ∧ tp.tidList[idx]? = some w.tid := by
  obtain ⟨j, t, hj, ht⟩ := h.registered.slot hw (Worker.ident_of_live hl)
  have ht' : t = w.tid := by
    unfold slotId at ht
    split at ht
    · cases ht
    · exact Option.some.inj ht
  rw [ht'] at hj
  have hlen : j < tp.tidList.length := (List.getElem?_eq_some_iff.1 hj).1
  exact tidScan_finds hj (Nat.zero_le j) (by have := h.slots_le; omega)

/-- Below `max_thread_cnt`, `GetUnusedTidIdx` does not answer `-1`. -/
theorem getUnusedTidIdx_ne (h : Account tp ws) (hlt : tp.curThreadCnt < tp.maxThreadCnt) :
    getUnusedTidIdx (some tp) ≠ .ok (-1) := by
  intro hr
  rcases tidScan_ok hr with ⟨-, hall⟩ | ⟨j, hj, -⟩
  · have hlen : tp.maxThreadCnt ≤ tp.tidList.length := by
      by_contra hlt'
      obtain ⟨t, ht, -⟩ := hall tp.tidList.length (Nat.zero_le _) (by omega)
      simp at ht
    have hused : tp.tidList.countP (· ≠ 0) = tp.tidList.length := by
      apply List.countP_eq_length.2
      intro t ht
      obtain ⟨j, hj⟩ := List.mem_iff_getElem?.1 ht
      have hj' : j < tp.tidList.length := (List.getElem?_eq_some_iff.1 hj).1
      obtain ⟨t', ht', hne⟩ := hall j (Nat.zero_le _) (by have := h.slots_le; omega)
      rw [hj] at ht'
      cases ht'
      simpa using hne
    rw [h.used] at hused
    omega
  · omega

/-- In a block with all the slots, it answers an unused one. -/
theorem getUnusedTidIdx_ok (h : Account tp ws) (hlt : tp.curThreadCnt < tp.maxThreadCnt)
    (hlen : tp.tidList.length = tp.maxThreadCnt) :
    ∃ idx : Nat, getUnusedTidIdx (some tp) = .ok idx ∧ tp.tidList[idx]? = some 0 := by
  have hshort : (ws.filterMap Worker.ident).length < tp.tidList.length := by
    rw [← countP_live, h.live, hlen]
    exact hlt
  obtain ⟨t, ht, hfree⟩ := h.registered.free hshort
  have ht0 : t = 0 := by
    by_contra hne
    rw [slotId_of_ne hne] at hfree
    cases hfree
  obtain ⟨j, hj⟩ := List.mem_iff_getElem?.1 ht
  rw [ht0] at hj
  exact tidScan_finds hj (Nat.zero_le j) (by have := (List.getElem?_eq_some_iff.1 hj).1; omega)

/-! ## The sections -/

/-- The rest of the record does not matter. -/
theorem of_eq (h : Account tp ws) (ht : tp'.tidList = tp.tidList) (hm : tp'.maxThreadCnt = tp.maxThreadCnt)
    (hc : tp'.curThreadCnt = tp.curThreadCnt) (ha : tp'.actThreadCnt = tp.actThreadCnt)
    (hw : tp'.waitExitThreadCnt < 2 ^ 32) : Account tp' ws where
  registered := ht ▸ h.registered
  tid_ne_zero := h.tid_ne_zero
  live := h.live.trans hc.symm
  busy := h.busy.trans ha.symm
  cur_le := by rw [hc, hm]; exact h.cur_le
  max_lt := hm ▸ h.max_lt
  wait_lt := hw
  slots_le := by rw [ht, hm]; exact h.slots_le
  slots_lt := ht ▸ h.slots_lt

/-- Any number of workers can be asked to leave. -/
theorem request (h : Account tp ws) {n : Nat} (hn : n < 2 ^ 32) : Account { tp with waitExitThreadCnt := n } ws :=
  h.of_eq rfl rfl rfl rfl hn

/-- A woken worker is as live as before, and not busy. -/
theorem wakes (h : Account tp ws) (hw : queueNotEmpty.Wakes ws us) : Account tp us where
  registered := by
    apply h.registered.keep
    rw [hw.filterMap_eq fun w hb => ?_]
    simp [Worker.ident, Worker.live, queueNotEmpty, Worker.pc_of_blocked hb]
  tid_ne_zero := hw.forall (fun _ _ ht => ht) h.tid_ne_zero
  live := by
    rw [← h.live]
    exact hw.countP_eq fun w hb => by simp [Worker.live, queueNotEmpty, Worker.pc_of_blocked hb]
  busy := by
    rw [← h.busy]
    exact hw.countP_eq fun w hb => by simp [Worker.busy, queueNotEmpty, Worker.pc_of_blocked hb]
  cur_le := h.cur_le
  max_lt := h.max_lt
  wait_lt := h.wait_lt
  slots_le := h.slots_le
  slots_lt := h.slots_lt

/-- A live worker moves on. -/
theorem move (h : Account tp ws) {i : Nat} {w : Worker τ} (act : Nat) (pc : WorkerPc τ) (hw : ws[i]? = some w)
    (hl : w.live = true) (hl' : ({ w with pc := pc } : Worker τ).live = true)
    (hact : act + w.busy.toNat = tp.actThreadCnt + ({ w with pc := pc } : Worker τ).busy.toNat) :
    Account { tp with actThreadCnt := act } (ws.set i { w with pc := pc }) where
  registered := by
    apply h.registered.keep
    have hperm := filterMap_set_perm Worker.ident hw { w with pc := pc }
    rw [Worker.ident_of_live hl, Worker.ident_of_live hl'] at hperm
    exact hperm.cons_inv
  tid_ne_zero := forall_mem_set h.tid_ne_zero (h.tid_ne_zero w (List.mem_of_getElem? hw))
  live := by
    have hcount := countP_set_add Worker.live hw { w with pc := pc }
    rw [hl, hl', h.live] at hcount
    exact Nat.add_right_cancel hcount
  busy := by
    have hcount := countP_set_add Worker.busy hw { w with pc := pc }
    rw [h.busy] at hcount
    show _ = act
    omega
  cur_le := h.cur_le
  max_lt := h.max_lt
  wait_lt := h.wait_lt
  slots_le := h.slots_le
  slots_lt := h.slots_lt

/-- A worker starts in an unused slot. -/
theorem spawn (h : Account s.tp s.workers) {idx tid : Nat} (hlt : s.tp.curThreadCnt < s.tp.maxThreadCnt)
    (hidx : s.tp.tidList[idx]? = some 0) (hf : fresh s.workers tid = true) :
    Account (spawn s idx tid).tp (spawn s idx tid).workers := by
  obtain ⟨htid, hall⟩ : tid ≠ 0 ∧ ∀ w ∈ s.workers, w.live = false ∨ w.tid ≠ tid := by
    simpa [fresh] using hf
  have hcur : u32 ((s.tp.curThreadCnt : Int) + 1) = s.tp.curThreadCnt + 1 :=
    u32_succ (by have := h.max_lt; omega)
  have hnew : tid ∉ s.workers.filterMap Worker.ident := by
    intro hmem
    obtain ⟨w, hw, hid⟩ := List.mem_filterMap.1 hmem
    unfold Worker.ident at hid
    rcases hall w hw with hl | hne
    · rw [hl] at hid; cases hid
    · split at hid
      · exact hne (Option.some.inj hid)
      · cases hid
  exact {
    registered := h.registered.enter hidx rfl (slotId_of_ne htid) rfl hnew
    tid_ne_zero := List.forall_mem_append.2 ⟨h.tid_ne_zero, List.forall_mem_singleton.2 htid⟩
    live := by
      show (s.workers ++ _).countP _ = u32 ((s.tp.curThreadCnt : Int) + 1)
      rw [List.countP_append, h.live, hcur]; rfl
    busy := by
      show (s.workers ++ _).countP _ = s.tp.actThreadCnt
      rw [List.countP_append, h.busy]; rfl
    cur_le := by
      show u32 ((s.tp.curThreadCnt : Int) + 1) ≤ s.tp.maxThreadCnt
      rw [hcur]; exact hlt
    max_lt := h.max_lt
    wait_lt := h.wait_lt
    slots_le := by
      show (s.tp.tidList.set idx tid).length ≤ _
      rw [List.length_set]; exact h.slots_le
    slots_lt := by
      show (s.tp.tidList.set idx tid).length < _
      rw [List.length_set]; exact h.slots_lt }

/-- What a worker that leaves makes of `cur_thread_cnt`. -/
theorem leave_cur (h : Account s.tp s.workers) {i : Nat} {w : Worker τ} (idx : Nat) (hw : s.workers[i]? = some w)
    (hl : w.looking) : (ThreadPool.leave s i w idx).tp.curThreadCnt + 1 = s.tp.curThreadCnt := by
  have hpos := h.cur_pos (List.mem_of_getElem? hw) (Worker.live_of_looking hl)
  have hcur : (ThreadPool.leave s i w idx).tp.curThreadCnt = s.tp.curThreadCnt - 1 := u32_pred hpos h.cur_lt
  omega

/-- What it makes of the pending exits. -/
theorem leave_wait (h : Account s.tp s.workers) (i idx : Nat) (w : Worker τ) (hne : s.tp.waitExitThreadCnt ≠ 0) :
    (ThreadPool.leave s i w idx).tp.waitExitThreadCnt + 1 = s.tp.waitExitThreadCnt := by
  have hwait : (ThreadPool.leave s i w idx).tp.waitExitThreadCnt = s.tp.waitExitThreadCnt - 1 :=
    (if_pos hne).trans (u32_pred (Nat.pos_of_ne_zero hne) h.wait_lt)
  omega

/-- A worker leaves from its slot. -/
theorem leave (h : Account s.tp s.workers) {i idx : Nat} {w : Worker τ} (hw : s.workers[i]? = some w)
    (hl : w.looking) (hidx : s.tp.tidList[idx]? = some w.tid) :
    Account (leave s i w idx).tp (leave s i w idx).workers := by
  have hmem := List.mem_of_getElem? hw
  have hlive := Worker.live_of_looking hl
  have hcur := h.leave_cur idx hw hl
  exact {
    registered := h.registered.exit hidx (slotId_of_ne (h.tid_ne_zero w hmem)) rfl hw (Worker.ident_of_live hlive) rfl
    tid_ne_zero := forall_mem_set h.tid_ne_zero (h.tid_ne_zero w hmem)
    live := by
      have hcount := countP_set_add Worker.live hw { w with pc := .gone }
      rw [hlive, h.live, ← hcur] at hcount
      exact Nat.add_right_cancel hcount
    busy := by
      have hcount := countP_set_add Worker.busy hw { w with pc := .gone }
      rw [Worker.not_busy_of_looking hl, h.busy] at hcount
      exact hcount
    cur_le := Nat.le_of_succ_le (Nat.le_trans (Nat.le_of_eq hcur) h.cur_le)
    max_lt := h.max_lt
    wait_lt := by
      show (if _ then u32 _ else _) < _
      split
      · exact u32_lt _
      · exact h.wait_lt
    slots_le := by
      show (s.tp.tidList.set idx 0).length ≤ _
      rw [List.length_set]; exact h.slots_le
    slots_lt := by
      show (s.tp.tidList.set idx 0).length < _
      rw [List.length_set]; exact h.slots_lt }

end Account

/-! ## The control thread -/

/-- What the loop has made of `s` when it leaves room for `room` more workers. -/
structure Grown (s : Pool τ) (room : Nat) (s' : Pool τ) : Prop where
  account : Account s'.tp s'.workers
  cur_ge : s.tp.curThreadCnt ≤ s'.tp.curThreadCnt
  cur_le : s'.tp.curThreadCnt + room ≤ s'.tp.maxThreadCnt
  max : s'.tp.maxThreadCnt = s.tp.maxThreadCnt
  slots : s'.tp.tidList.length = s.tp.tidList.length

/-- One worker more. -/
theorem Grown.spawn {room idx tid : Nat} (h : Grown s (room + 1) s') (hidx : s'.tp.tidList[idx]? = some 0)
    (hf : fresh s'.workers tid = true) : Grown s room (spawn s' idx tid) := by
  have hle := h.cur_le
  have hge := h.cur_ge
  have hmax := h.account.max_lt
  have hcur : (ThreadPool.spawn s' idx tid).tp.curThreadCnt = s'.tp.curThreadCnt + 1 := u32_succ (by omega)
  refine ⟨h.account.spawn (by omega) hidx hf, by omega, ?_, h.max, (List.length_set ..).trans h.slots⟩
  show _ ≤ s'.tp.maxThreadCnt
  omega

/-- The loop with `n` rounds to go, and room for `room` workers besides. -/
theorem expandLoop_account {n : Nat} (room : Nat) {creates : List (Except Nat Nat)} (h : Account s.tp s.workers)
    (hle : s.tp.curThreadCnt + n + room ≤ s.tp.maxThreadCnt) (he : expandLoop n creates s = .ok s') :
    Grown s room s' := by
  have hP : Grown s (room + 0) s' := by
    refine expandLoop_inv (P := fun s' n => Grown s (room + n) s') ?_ ?_ ⟨h, Nat.le_refl _, by omega, rfl, rfl⟩ he
    · intro s₁ n idx tid hg hidx hne hf
      rcases tidScan_ok hidx with ⟨h1, -⟩ | ⟨j, rfl, hj⟩
      · exact absurd h1 hne
      · exact hg.spawn hj hf
    · intro s₁ n hg _
      exact ⟨hg.account, hg.cur_ge, Nat.le_of_succ_le hg.cur_le, hg.max, hg.slots⟩
  exact hP

/-- The loop is asked for no more threads than there is room for. -/
theorem expandStrategy_le (hle : tp.curThreadCnt ≤ tp.maxThreadCnt) :
    tp.curThreadCnt + (expandStrategy tp).toNat ≤ tp.maxThreadCnt := by
  have hdiff : s32 ((tp.maxThreadCnt : Int) - tp.curThreadCnt) ≤ (tp.maxThreadCnt : Int) - tp.curThreadCnt :=
    s32_le (by omega)
  unfold expandStrategy
  dsimp only
  split <;> omega

theorem resize_account {creates : List (Except Nat Nat)} (h : Account s.tp s.workers)
    (hr : resize R creates s = .ok s') : Account s'.tp s'.workers := by
  rcases resize_cases hr with ⟨rfl, -⟩ | ⟨-, ⟨-, he⟩ | ⟨-, -, -, rfl⟩⟩
  · exact h
  · have hle := expandStrategy_le h.cur_le
    exact (expandLoop_account 0 h (by omega) he).account
  · exact h.request (u32_lt _)

theorem tick_account {creates : List (Except Nat Nat)} (h : Account s.tp s.workers)
    (hr : resize R creates s = .ok s') : Account (wakeWorkers (drain s')).tp (wakeWorkers (drain s')).workers := by
  have h' := resize_account h hr
  have hd : Account (drain s').tp (drain s').workers := by
    unfold drain
    split
    · exact h'.request h'.cur_lt
    · exact h'
  have hw := hd.wakes (wakeWorkers_wakes _)
  rw [wakeWorkers_eq]
  exact hw

/-! ## The runs -/

/-- **A step keeps the account.** -/
theorem account_step {a : Act τ} (h : Account s.tp s.workers) (hstep : step R s a = some s') :
    Account s'.tp s'.workers := by
  cases step_moves hstep with
  | again => exact h
  | quit => exact h.of_eq rfl rfl rfl rfl h.wait_lt
  | ctrlReturn => exact h
  | tick _ _ hr => exact tick_account h hr
  | sleep hw hl =>
    exact h.move _ _ hw (Worker.live_of_looking hl) rfl (by rw [Worker.not_busy_of_looking hl]; rfl)
  | @leave i pick w idx hw hl _ _ hf hi =>
    rcases tidScan_ok hf with ⟨h1, -⟩ | ⟨j, rfl, hj⟩
    · exact absurd h1 hi
    · exact h.leave hw hl hj
  | @take i pick w task callers hw hl =>
    have hlive := Worker.live_of_looking hl
    have hbusy := Worker.not_busy_of_looking hl
    have hroom : s.tp.actThreadCnt + 1 < 2 ^ 32 := by
      have h' := h.move (s.tp.actThreadCnt + 1) (.run task) hw hlive rfl (by rw [hbusy]; rfl)
      exact Nat.lt_of_le_of_lt h'.act_le h.cur_lt
    have h' := h.move (u32 ((s.tp.actThreadCnt : Int) + 1)) (.run task) hw hlive rfl
      (by rw [hbusy, u32_succ hroom]; rfl)
    exact h'.of_eq rfl rfl rfl rfl h.wait_lt
  | @done i w task hw hr =>
    have hlive : w.live = true := by simp [Worker.live, hr]
    have hbusy : w.busy = true := by simp [Worker.busy, hr]
    have hpos := h.act_pos (List.mem_of_getElem? hw) hbusy
    have hlt : s.tp.actThreadCnt < 2 ^ 32 := Nat.lt_of_le_of_lt h.act_le h.cur_lt
    apply h.move _ _ hw hlive rfl
    rw [hbusy, u32_pred hpos hlt]
    exact Nat.sub_add_cancel hpos
  | call task => cases task <;> exact h
  | addWait => exact h
  | addShutdown => exact h
  | addPut _ _ _ _ hw => exact (h.wakes (signal_wakes hw)).of_eq rfl rfl rfl rfl h.wait_lt
  | spuriousWorker hw => exact h.wakes (signal_wakes hw)
  | spuriousCaller => exact h

theorem tidSlots_le {hi slots : Nat} (h : tidSlots hi = some slots) : slots ≤ hi ∧ slots < 2 ^ 28 := by
  have hle : s32 ((hi : Int) * 8) ≤ (hi : Int) * 8 := s32_le (by omega)
  have hlt : s32 ((hi : Int) * 8) < 2 ^ 31 := s32_lt _
  unfold tidSlots at h
  dsimp only at h
  split at h
  · cases h
  · rw [← Option.some.inj h]
    omega

theorem account_blank (que : QueueT τ) {slots minThreadCnt maxThreadCnt : Nat} (hmax : maxThreadCnt < 2 ^ 32)
    (hle : slots ≤ maxThreadCnt) (hlt : slots < 2 ^ 28) :
    Account (blank que slots minThreadCnt maxThreadCnt).tp [] where
  registered := by
    have hnil : (List.replicate slots 0).filterMap slotId = [] := by
      rw [List.filterMap_eq_nil_iff]
      intro t ht
      rw [List.eq_of_mem_replicate ht]
      rfl
    exact ⟨by simp [blank, hnil], List.nodup_nil⟩
  tid_ne_zero := nofun
  live := rfl
  busy := rfl
  cur_le := Nat.zero_le _
  max_lt := hmax
  wait_lt := Nat.two_pow_pos 32
  slots_le := by simpa [blank] using hle
  slots_lt := by simpa [blank] using hlt

/-- The pool while `thread_pool_init` creates its workers: `left` are still to come, from slot `idx` on. -/
structure Creating (s : Pool τ) (left idx : Nat) : Prop where
  account : Account s.tp s.workers
  cur_add : s.tp.curThreadCnt + left = s.tp.minThreadCnt
  min_pos : 1 ≤ s.tp.minThreadCnt
  min_le : s.tp.minThreadCnt ≤ s.tp.maxThreadCnt
  wait : s.tp.waitExitThreadCnt = 0
  unused : ∀ (j t : Nat), idx ≤ j → s.tp.tidList[j]? = some t → t = 0

theorem Creating.spawn {left idx tid : Nat} (h : Creating s (left + 1) idx) (hlt : idx < s.tp.tidList.length)
    (hf : fresh s.workers tid = true) : Creating (spawn s idx tid) left (idx + 1) := by
  have hadd := h.cur_add
  have hle := h.min_le
  have hmax := h.account.max_lt
  have hget : s.tp.tidList[idx]? = some 0 := by
    have hsome := List.getElem?_eq_getElem hlt
    rw [hsome, h.unused idx _ (Nat.le_refl _) hsome]
  have hcur : (ThreadPool.spawn s idx tid).tp.curThreadCnt = s.tp.curThreadCnt + 1 := u32_succ (by omega)
  refine ⟨h.account.spawn (by omega) hget hf, ?_, h.min_pos, h.min_le, h.wait, ?_⟩
  · show _ + left = s.tp.minThreadCnt
    omega
  · intro j t hj ht
    have hset : (s.tp.tidList.set idx tid)[j]? = some t := ht
    rw [List.getElem?_set_ne (by omega)] at hset
    exact h.unused j t (by omega) hset

/-- The pool that `thread_pool_init` leaves has its least number of workers. -/
theorem account_init (h : Init s) : ∃ idx, Creating s 0 idx := by
  obtain ⟨que, slots, lo, hi, creates, -, -, -, hlo, hle, hhi, hslots, hloop⟩ := init_cases h
  obtain ⟨hslots1, hslots2⟩ := tidSlots_le hslots
  refine createLoop_inv (P := Creating) (fun _ _ _ _ hc hlt hf => hc.spawn hlt hf) ?_ hloop
  refine ⟨account_blank que hhi hslots1 hslots2, Nat.zero_add _, hlo, hle, rfl, ?_⟩
  intro j t _ ht
  exact List.eq_of_mem_replicate (List.mem_of_getElem? ht)

theorem account_reach (h : Reach Init (step R) s) : Account s.tp s.workers :=
  h.inv (P := fun s : Pool τ => Account s.tp s.workers) (fun _ hi => (account_init hi).choose_spec.account)
    fun _ _ _ => account_step

/-- What the pool promises of its counters and slots while the lock is free. -/
structure Accounted (s : Pool τ) : Prop where
  cur_eq_live : s.tp.curThreadCnt = s.workers.countP Worker.live
  cur_eq_used : s.tp.curThreadCnt = s.tp.tidList.countP (· ≠ 0)
  one_slot : ∀ w ∈ s.workers, w.live = true → s.tp.tidList.count w.tid = 1
  cur_le_max : s.tp.curThreadCnt ≤ s.tp.maxThreadCnt
  act_eq_busy : s.tp.actThreadCnt = s.workers.countP Worker.busy
  act_le_cur : s.tp.actThreadCnt ≤ s.tp.curThreadCnt
  /-- `FindTidIdx` answers the slot of the worker that calls it. -/
  find : ∀ w ∈ s.workers, w.live = true →
    ∃ idx : Nat, findTidIdx (some s.tp) w.tid = .ok idx ∧ s.tp.tidList[idx]? = some w.tid
  /-- In every round of the expansion, here after `k` of them, `GetUnusedTidIdx` does not answer `-1`. -/
  unused : ∀ (k : Nat) (creates : List (Except Nat Nat)) (s₁ : Pool τ), k < (expandStrategy s.tp).toNat →
    expandLoop k creates s = .ok s₁ → getUnusedTidIdx (some s₁.tp) ≠ .ok (-1) ∧
      (s.tp.tidList.length = s.tp.maxThreadCnt →
        ∃ idx : Nat, getUnusedTidIdx (some s₁.tp) = .ok idx ∧ s₁.tp.tidList[idx]? = some 0)
  /-- The decrements of a worker that leaves. -/
  cur_pred : ∀ w ∈ s.workers, w.live = true → u32 (s.tp.curThreadCnt - 1) + 1 = s.tp.curThreadCnt
  wait_pred : s.tp.waitExitThreadCnt ≠ 0 → u32 (s.tp.waitExitThreadCnt - 1) + 1 = s.tp.waitExitThreadCnt
  /-- The decrement at the end of a task. -/
  act_pred : ∀ w ∈ s.workers, w.busy = true → u32 (s.tp.actThreadCnt - 1) + 1 = s.tp.actThreadCnt

theorem Account.accounted (h : Account s.tp s.workers) : Accounted s where
  cur_eq_live := h.live.symm
  cur_eq_used := h.used.symm
  one_slot _ hw hl := h.count_eq_one hw hl
  cur_le_max := h.cur_le
  act_eq_busy := h.busy.symm
  act_le_cur := h.act_le
  find _ hw hl := h.findTidIdx_ok hw hl
  unused k creates s₁ hk he := by
    have hroom := expandStrategy_le h.cur_le
    have hg := expandLoop_account 1 h (by omega) he
    refine ⟨hg.account.getUnusedTidIdx_ne hg.cur_le, fun hfull => hg.account.getUnusedTidIdx_ok hg.cur_le ?_⟩
    rw [hg.slots, hg.max, hfull]
  cur_pred _ hw hl := by
    have hpos := h.cur_pos hw hl
    rw [u32_pred hpos h.cur_lt]
    exact Nat.sub_add_cancel hpos
  wait_pred h0 := by
    have hpos := Nat.pos_of_ne_zero h0
    rw [u32_pred hpos h.wait_lt]
    exact Nat.sub_add_cancel hpos
  act_pred _ hw hb := by
    have hpos := h.act_pos hw hb
    rw [u32_pred hpos (Nat.lt_of_le_of_lt h.act_le h.cur_lt)]
    exact Nat.sub_add_cancel hpos

/-- **The counters and the slots account for the workers in every reachable state**, whatever the busy rate is. -/
theorem accounting (h : Reach Init (step R) s) : Accounted s := (account_reach h).accounted

theorem accounting_expanded : Accounted expanded := accounting expanded_reach

end SystemFunc.ThreadPool
