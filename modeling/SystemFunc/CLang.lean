import Mathlib.Data.Int.ModEq

/-!
# What the models take from C

`unsigned int` values are numbers below `2^32`, `int` values are integers; `u32` and `s32` are the conversions to
them. A `Block` is what `malloc` returns: a number of cells of arbitrary content. `Stop` says how a piece of code can
end other than by going on; code that can end so is an `Except Stop`.
-/

namespace SystemFunc

/-- Conversion to `unsigned int`. -/
def u32 (n : Int) : Nat := (n % 2 ^ 32).toNat

/-- Conversion to `int`. -/
def s32 (n : Int) : Int := if n % 2 ^ 32 < 2 ^ 31 then n % 2 ^ 32 else n % 2 ^ 32 - 2 ^ 32

theorem u32_lt (n : Int) : u32 n < 2 ^ 32 := by unfold u32; omega

theorem u32_nat {n : Nat} (h : n < 2 ^ 32) : u32 n = n := by unfold u32; omega

theorem u32_succ {n : Nat} (h : n + 1 < 2 ^ 32) : u32 ((n : Int) + 1) = n + 1 := by unfold u32; omega

theorem u32_pred {n : Nat} (h0 : 0 < n) (h : n < 2 ^ 32) : u32 ((n : Int) - 1) = n - 1 := by unfold u32; omega

theorem s32_of_lt {n : Int} (h0 : -2 ^ 31 ≤ n) (h : n < 2 ^ 31) : s32 n = n := by unfold s32; omega

theorem s32_lt (n : Int) : s32 n < 2 ^ 31 := by unfold s32; omega

theorem s32_le {n : Int} (h : 0 ≤ n) : s32 n ≤ n := by unfold s32; omega

theorem u32_s32 (n : Int) : u32 (s32 n) = u32 n := by unfold u32 s32; split <;> omega

theorem s32_congr {m n : Int} (h : m % 2 ^ 32 = n % 2 ^ 32) : s32 m = s32 n := by simp only [s32, h]

theorem s32_sub_s32 (m n : Int) : s32 (m - s32 n) = s32 (m - n) := by
  apply s32_congr
  unfold s32
  split <;> omega

/-- The values of an `int`. -/
def IsInt (n : Int) : Prop := -2 ^ 31 ≤ n ∧ n < 2 ^ 31

instance (n : Int) : Decidable (IsInt n) := inferInstanceAs (Decidable (-2 ^ 31 ≤ n ∧ n < 2 ^ 31))

/-- An `int`. -/
abbrev CInt := { n : Int // IsInt n }

/-- The `int` of a C comparison. -/
def cbool (p : Prop) [Decidable p] : Int := if p then 1 else 0

@[simp] theorem cbool_eq_zero {p : Prop} [Decidable p] : cbool p = 0 ↔ ¬p := by
  unfold cbool; split <;> simp_all

/-- A block of `n` cells from `malloc`, with whatever was in them. -/
structure Block (β : Type*) (n : Nat) where
  cells : List β
  len : cells.length = n

/-- How a piece of code ends other than by going on: the process exits with a message, the code does what C leaves
undefined, or the environment does not answer this way. -/
inductive Stop where
  | exit (errno : Nat) (headStr : String)
  | undefined
  | disabled
  deriving DecidableEq

def EINVAL : Nat := 22
def ENOMEM : Nat := 12

/-- What the environment answers, if it does. -/
def answered {β : Type*} : Option β → Except Stop β
  | some b => .ok b
  | none => .error .disabled

@[simp] theorem answered_eq_ok {β : Type*} {o : Option β} {b : β} : answered o = .ok b ↔ o = some b := by
  cases o <;> simp [answered]

@[simp] theorem ok_bind {β γ : Type} (b : β) (f : β → Except Stop γ) : (.ok b >>= f) = f b := rfl

@[simp] theorem error_bind {β γ : Type} (e : Stop) (f : β → Except Stop γ) : (.error e >>= f) = .error e := rfl

theorem bind_eq_ok {β γ : Type} {x : Except Stop β} {f : β → Except Stop γ} {c : γ} :
    (x >>= f) = .ok c ↔ ∃ b, x = .ok b ∧ f b = .ok c := by
  cases x with
  | error e => simp [bind, Except.bind]
  | ok b => simp [bind, Except.bind]

/-- Nothing undefined happens, and where the code goes on, `P` holds. -/
def Safe {β : Type} (P : β → Prop) : Except Stop β → Prop
  | .ok b => P b
  | .error e => e ≠ .undefined

/-- The process exits. -/
theorem safe_exit {β : Type} {P : β → Prop} {errno : Nat} {headStr : String} :
    Safe P (.error (.exit errno headStr)) := fun he => nomatch he

/-- The environment does not answer this way. -/
theorem safe_disabled {β : Type} {P : β → Prop} : Safe P (.error .disabled) := by
  intro he
  cases he

theorem Safe.bind {β γ : Type} {P : β → Prop} {Q : γ → Prop} {x : Except Stop β} {f : β → Except Stop γ}
    (hx : Safe P x) (hf : ∀ b, P b → Safe Q (f b)) : Safe Q (x >>= f) := by
  cases x with
  | error e => exact hx
  | ok b => exact hf b hx

theorem Safe.mono {β : Type} {P Q : β → Prop} {x : Except Stop β} (hx : Safe P x) (h : ∀ b, P b → Q b) :
    Safe Q x := by
  cases x with
  | error e => exact hx
  | ok b => exact h b hx

/-- A loop whose body keeps `P`. -/
theorem Safe.foldlM {β γ : Type} {P : β → Prop} {f : β → γ → Except Stop β} {l : List γ}
    (hf : ∀ c ∈ l, ∀ b, P b → Safe P (f b c)) {b : β} (hb : P b) : Safe P (l.foldlM f b) := by
  induction l generalizing b with
  | nil => exact hb
  | cons c l ih =>
    rw [List.foldlM_cons]
    apply (hf c List.mem_cons_self b hb).bind
    intro b' hb'
    exact ih (fun d hd => hf d (List.mem_cons_of_mem c hd)) hb'

/-- A loop `for (i = 0; i < n; ++i)` whose body goes on and takes `P i` to `P (i + 1)`. -/
theorem foldlM_range_ok {β : Type} {f : β → Nat → Except Stop β} {P : Nat → β → Prop} {n : Nat} {b : β} (hb : P 0 b)
    (hf : ∀ i < n, ∀ b, P i b → ∃ b', f b i = .ok b' ∧ P (i + 1) b') :
    ∃ b', (List.range n).foldlM f b = .ok b' ∧ P n b' := by
  induction n with
  | zero => exact ⟨b, rfl, hb⟩
  | succ n ih =>
    obtain ⟨c, hc, hn⟩ := ih fun i hi => hf i (Nat.lt_succ_of_lt hi)
    obtain ⟨d, hd, hlast⟩ := hf n (Nat.lt_succ_self n) c hn
    refine ⟨d, ?_, hlast⟩
    rw [List.range_succ, List.foldlM_append, hc, ok_bind, List.foldlM_cons, hd]
    rfl

end SystemFunc
