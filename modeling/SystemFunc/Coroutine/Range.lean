import SystemFunc.CLang
import SystemFunc.Lib.Machine

/-!
# The two generators of `useful_func/coroutine.c`

`range` comes back into its loop through a label of the `switch`, `range2` through a `goto`. A label is a function of
the static variables here, and a jump is a call of it: `test` is where the condition of the loop is looked at, and
`case1` and `resume` are the ends of the loop bodies, from which `i++` follows. An `i++` beyond `LLONG_MAX` is
undefined.

- `range_sim`: from corresponding variables, a call of the one and of the other return the same;
- `range_idle`, `range_resume`: what a call does from an idle and from a suspended generator;
- `range_agree`: every sequence of calls, and what a loop over the generator gets.
-/

namespace SystemFunc.Coroutine

open Machine

def LLONG_MAX : Int := 2 ^ 63 - 1

/-- The static variables of a function. -/
structure Static where
  i : Int
  state : Int
  deriving DecidableEq

/-- Before the first call. -/
def Static.start : Static := ⟨0, 0⟩

/-- What a call returns; `i` is converted to `int`. -/
abbrev Return := Except Stop Int

/-! ## `range` -/

/-- Behind the `switch`. -/
def range.done (s : Static) : Return × Static := (.ok 0, { s with state := 0 })

def range.test (b : Int) (s : Static) : Return × Static := if s.i < b then (.ok (s32 s.i), s) else range.done s

def range.case1 (b : Int) (s : Static) : Return × Static :=
  if s.i < LLONG_MAX then range.test b { s with i := s.i + 1 } else (.error .undefined, s)

def range.case0 (a b : Int) (s : Static) : Return × Static := range.test b { s with state := 1, i := a }

def range (s : Static) (args : CInt × CInt) : Return × Static :=
  if s.state = 0 then range.case0 args.1 args.2 s
  else if s.state = 1 then range.case1 args.2 s
  else range.done s

/-! ## `range2` -/

/-- Behind the loop. -/
def range2.done (s : Static) : Return × Static := (.ok 0, { s with state := 0 })

def range2.test (b : Int) (s : Static) : Return × Static := if s.i < b then (.ok (s32 s.i), s) else range2.done s

def range2.resume (b : Int) (s : Static) : Return × Static :=
  if s.i < LLONG_MAX then range2.test b { s with i := s.i + 1 } else (.error .undefined, s)

def range2 (s : Static) (args : CInt × CInt) : Return × Static :=
  if s.state ≠ 0 then range2.resume args.2 s
  else range2.test args.2 { s with state := 1, i := args.1 }

/-! ## One call -/

/-- The generator is idle, or it has returned `i`. -/
structure Static.Good (s : Static) : Prop where
  state : s.state = 0 ∨ s.state = 1
  int : s.state = 1 → IsInt s.i ∧ s.i < 2 ^ 31 - 1

/-- The variables of `range` and those of `range2`. -/
structure Corresponds (s t : Static) : Prop where
  i : s.i = t.i
  state : s.state = t.state
  good : s.Good

variable {s t : Static} {a b : CInt}

/-- What an idle generator does. -/
def begin (a b : Int) : Return × Static := if a < b then (.ok a, ⟨a, 1⟩) else (.ok 0, ⟨a, 0⟩)

/-- What a generator does that has returned `i`. -/
def proceed (i b : Int) : Return × Static := if i + 1 < b then (.ok (i + 1), ⟨i + 1, 1⟩) else (.ok 0, ⟨i + 1, 0⟩)

theorem s32_int {n : Int} (h : IsInt n) : s32 n = n := s32_of_lt h.1 h.2

theorem Static.Good.lt_max (h : s.Good) (hs : s.state = 1) : s.i < LLONG_MAX := by
  have hlt := (h.int hs).2
  unfold LLONG_MAX
  omega

/-- What is returned next is an `int`. -/
theorem Static.Good.next_int (h : s.Good) (hs : s.state = 1) : IsInt (s.i + 1) := by
  obtain ⟨⟨hlow, -⟩, hlt⟩ := h.int hs
  exact ⟨by omega, by omega⟩

theorem range_idle (h : s.state = 0) : range s (a, b) = begin a b := by
  rw [range, if_pos h, range.case0, range.test, begin]
  dsimp only
  rw [s32_int a.2]
  rfl

theorem range_resume (hs : s.Good) (h : s.state = 1) : range s (a, b) = proceed s.i b := by
  have hne : s.state ≠ 0 := by rw [h]; decide
  rw [range, if_neg hne, if_pos h, range.case1, if_pos (hs.lt_max h), range.test, proceed]
  dsimp only
  rw [s32_int (hs.next_int h), h]
  rfl

theorem range2_idle (h : s.state = 0) : range2 s (a, b) = begin a b := by
  rw [range2, if_neg (not_not.2 h), range2.test, begin]
  dsimp only
  rw [s32_int a.2]
  rfl

theorem range2_resume (hs : s.Good) (h : s.state = 1) : range2 s (a, b) = proceed s.i b := by
  have hne : s.state ≠ 0 := by rw [h]; decide
  rw [range2, if_pos hne, range2.resume, if_pos (hs.lt_max h), range2.test, proceed]
  dsimp only
  rw [s32_int (hs.next_int h), h]
  rfl

theorem good_idle (i : Int) : Static.Good ⟨i, 0⟩ := ⟨.inl rfl, fun h => absurd h (by decide : (0 : Int) ≠ 1)⟩

theorem good_suspended {i : Int} (hi : IsInt i) (hlt : i < b) : Static.Good ⟨i, 1⟩ := by
  have hb := b.2.2
  exact ⟨.inr rfl, fun _ => ⟨hi, by dsimp only; omega⟩⟩

theorem begin_good (a b : CInt) : (begin a b).2.Good := by
  unfold begin
  split
  · rename_i hlt
    exact good_suspended a.2 hlt
  · exact good_idle a

theorem proceed_good (hs : s.Good) (h : s.state = 1) (b : CInt) : (proceed s.i b).2.Good := by
  unfold proceed
  split
  · rename_i hlt
    exact good_suspended (hs.next_int h) hlt
  · exact good_idle (s.i + 1)

/-- **Every call**: both functions return the same, and stay in corresponding states. -/
theorem range_sim (h : Corresponds s t) (args : CInt × CInt) :
    (range s args).1 = (range2 t args).1 ∧ Corresponds (range s args).2 (range2 t args).2 := by
  obtain ⟨a, b⟩ := args
  obtain rfl : s = t := by
    cases s
    cases t
    exact congrArg₂ Static.mk h.i h.state
  rcases h.good.state with h0 | h1
  · rw [range_idle h0, range2_idle h0]
    exact ⟨rfl, rfl, rfl, begin_good a b⟩
  · rw [range_resume h.good h1, range2_resume h.good h1]
    exact ⟨rfl, rfl, rfl, proceed_good h.good h1 b⟩

/-! ## A loop over the generator -/

/-- From a suspended generator, each of `n` calls returns the next number. -/
theorem range_resumes {n : Nat} (hs : s.Good) (h : s.state = 1) (hn : s.i + n < b) :
    answers range s (List.replicate n (a, b)) = (List.range n).map (fun k => .ok (s.i + 1 + k)) ∧
      after range s (List.replicate n (a, b)) = ⟨s.i + n, 1⟩ := by
  induction n generalizing s with
  | zero =>
    refine ⟨rfl, ?_⟩
    rw [← h, Nat.cast_zero, add_zero]
    rfl
  | succ n ih =>
    push_cast at hn
    have hcall : range s (a, b) = (.ok (s.i + 1), ⟨s.i + 1, 1⟩) := by
      rw [range_resume hs h, proceed, if_pos (by omega)]
    have hgood : Static.Good ⟨s.i + 1, 1⟩ := by
      have hproceed := proceed_good hs h b
      rwa [← range_resume (a := a) hs h, hcall] at hproceed
    obtain ⟨hanswers, hafter⟩ := ih hgood rfl (by dsimp only; omega)
    rw [List.replicate_succ, answers, after, hcall, hanswers, hafter, List.range_succ_eq_map, List.map_cons,
      List.map_map]
    refine ⟨?_, ?_⟩
    · congr 1
      · simp
      · apply List.map_congr_left
        intro k _
        simp only [Function.comp, Nat.succ_eq_add_one, Nat.cast_add, Nat.cast_one]
        congr 1
        omega
    · congr 1
      push_cast
      omega

/-- From an idle generator, the calls with `(a, b)` return `a` to `b - 1`, and the next one `0`. -/
structure Yields (call : Static → CInt × CInt → Return × Static) (s : Static) (a b : CInt) : Prop where
  numbers : answers call s (List.replicate (b.1 - a.1).toNat (a, b)) =
    (List.range (b.1 - a.1).toNat).map fun k => .ok (a.1 + k)
  last : (call (after call s (List.replicate (b.1 - a.1).toNat (a, b))) (a, b)).1 = .ok 0
  idle : (call (after call s (List.replicate (b.1 - a.1).toNat (a, b))) (a, b)).2.state = 0

theorem range_yields (hidle : s.state = 0) (hlt : a < b) : Yields range s a b := by
  have hlt : a.1 < b.1 := hlt
  obtain ⟨n, hn⟩ : ∃ n, (b.1 - a.1).toNat = n + 1 := ⟨(b.1 - a.1).toNat - 1, by omega⟩
  have hfirst : range s (a, b) = (.ok a, ⟨a, 1⟩) := by rw [range_idle hidle, begin, if_pos hlt]
  have hgood : Static.Good ⟨a, 1⟩ := good_suspended a.2 hlt
  obtain ⟨hanswers, hafter⟩ := @range_resumes ⟨a, 1⟩ a b n hgood rfl (by dsimp only; omega)
  have hsuspended : after range s (List.replicate (n + 1) (a, b)) = ⟨a + n, 1⟩ := by
    rw [List.replicate_succ, after, hfirst, hafter]
  have hint : IsInt (a + n) := ⟨by have := a.2.1; omega, by have := b.2.2; omega⟩
  have hend : ¬a.1 + n + 1 < b := by omega
  have hlast : range ⟨a + n, 1⟩ (a, b) = (.ok 0, ⟨a + n + 1, 0⟩) := by
    rw [range_resume (good_suspended hint (by omega : a.1 + n < b)) rfl, proceed, if_neg hend]
  constructor
  · rw [hn, List.replicate_succ, answers, hfirst, hanswers, List.range_succ_eq_map, List.map_cons, List.map_map]
    congr 1
    · simp
    · apply List.map_congr_left
      intro k _
      simp only [Function.comp, Nat.succ_eq_add_one, Nat.cast_add, Nat.cast_one]
      congr 1
      omega
  · rw [hn, hsuspended, hlast]
  · rw [hn, hsuspended, hlast]

/-- From an idle generator, `range2` does what `range` does. -/
theorem Yields.transfer (hidle : s.state = 0) (h : Yields range s a b) : Yields range2 s a b := by
  have hgood : s.Good := ⟨.inl hidle, fun h1 => absurd (hidle.symm.trans h1) (by decide)⟩
  have hstart : Corresponds s s := ⟨rfl, rfl, hgood⟩
  have hsim : ∀ s t i, Corresponds s t →
      (range s i).1 = (range2 t i).1 ∧ Corresponds (range s i).2 (range2 t i).2 := fun _ _ i h => range_sim h i
  obtain ⟨hanswer, hafter⟩ := range_sim (after_sim hsim hstart (List.replicate (b.1 - a.1).toNat (a, b))) (a, b)
  exact ⟨(answers_eq_of_sim hsim hstart _).symm.trans h.numbers, hanswer.symm.trans h.last,
    hafter.state.symm.trans h.idle⟩

/-! ## Every sequence of calls -/

theorem range_defined (hs : s.Good) (args : CInt × CInt) : (∃ v, (range s args).1 = .ok v) ∧ (range s args).2.Good := by
  refine ⟨?_, (range_sim ⟨rfl, rfl, hs⟩ args).2.good⟩
  obtain ⟨a, b⟩ := args
  rcases hs.state with h0 | h1
  · rw [range_idle h0, begin]
    split <;> exact ⟨_, rfl⟩
  · rw [range_resume hs h1, proceed]
    split <;> exact ⟨_, rfl⟩

/-- **The two generators agree** on every sequence of calls, without anything undefined, and stay in corresponding
states; and with one pair `a < b` of arguments, both return the numbers from `a` on, then `0`, and are idle again. -/
theorem range_agree :
    (∀ calls : List (CInt × CInt), answers range .start calls = answers range2 .start calls ∧
      Corresponds (after range .start calls) (after range2 .start calls) ∧
      ∀ r ∈ answers range .start calls, ∃ v, r = .ok v) ∧
    ∀ (a b : CInt) (s : Static), a < b → s.state = 0 → Yields range s a b ∧ Yields range2 s a b := by
  have hgood : Static.start.Good := good_idle 0
  have hstart : Corresponds .start .start := ⟨rfl, rfl, hgood⟩
  have hsim : ∀ s t i, Corresponds s t →
      (range s i).1 = (range2 t i).1 ∧ Corresponds (range s i).2 (range2 t i).2 := fun _ _ i h => range_sim h i
  constructor
  · intro calls
    have hdefined : ∀ r ∈ answers range .start calls, ∃ v, r = .ok v :=
      @answers_inv _ _ _ range Static.Good (fun r => ∃ v, r = .ok v) (fun s i hs => range_defined hs i) .start hgood
        calls
    exact ⟨answers_eq_of_sim hsim hstart calls, after_sim hsim hstart calls, hdefined⟩
  · intro a b s hlt hidle
    exact ⟨range_yields hidle hlt, (range_yields hidle hlt).transfer hidle⟩

/-- The loop of `main`. -/
theorem range_agree_main : Yields range2 .start ⟨1, by decide⟩ ⟨5, by decide⟩ :=
  (range_agree.2 ⟨1, by decide⟩ ⟨5, by decide⟩ .start (by decide) rfl).2

end SystemFunc.Coroutine
