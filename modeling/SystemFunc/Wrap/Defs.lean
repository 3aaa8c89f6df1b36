import SystemFunc.Lib.Buffer

/-!
# `ReadCount` and `WriteCount` of `internet/wrap/wrap.c`

Both are the same loop over `left` and `index`; they differ in the call they make and in the message of their error
exit. `Count.pass` is one pass of it, from the answer of the call; where a program has other steps between the passes,
its states hold a `Count`. `writeCount` is a whole call, from the list of the answers.

- `writeCount_eq`: a call whose writes are partial, but never of no byte, writes everything.
-/

namespace SystemFunc.Wrap

open Buffer

inductive Errno where
  | eagain
  | ewouldblock
  | eintr
  | other
  deriving DecidableEq

/-- What `read` or `write` answers: a number of bytes, or `-1` and `errno`. -/
inductive Answer where
  | cnt (n : Nat)
  | failed (errno : Errno)
  deriving DecidableEq

/-- The bytes that an answer speaks of. -/
def Answer.size : Answer → Nat
  | .cnt n => n
  | .failed _ => 0

/-- The loop in `ReadCount` and in `WriteCount`. -/
structure Count where
  left : Nat
  index : Nat
  deriving DecidableEq

def Count.start (count : Nat) : Count := { left := count, index := 0 }

/-- What a pass comes to. -/
inductive Pass where
  | again (l : Count)
  | leave
  | exit (headStr : String)
  deriving DecidableEq

/-- The loop body; `headStr` is what is printed at the error exit. -/
def Count.pass (l : Count) (headStr : String) : Answer → Pass
  | .cnt 0 => .leave
  | .cnt n => .again { left := l.left - n, index := l.index + n }
  | .failed .eagain => .again l
  | .failed .ewouldblock => .again l
  | .failed .eintr => .again l
  | .failed .other => .exit headStr

def ReadCount.headStr : String := "call ReadCount failed"

def WriteCount.headStr : String := "call WriteCount failed"

/-- `WriteCount` from the state `l` of its loop on: the bytes it writes, what it returns and the answers it leaves. It
is `none` when the answers do not suffice, when one of them is for more than was asked for, and at the error exit. -/
def writeCount (buf : Nat → UInt8) (l : Count) : List Answer → Option (List UInt8 × Nat × List Answer)
  | [] => if l.left = 0 then some ([], l.index, []) else none
  | a :: as =>
    if l.left = 0 then some ([], l.index, a :: as)
    else if l.left < a.size then none
    else
      match l.pass WriteCount.headStr a with
      | .again l' => (writeCount buf l' as).map fun r => (slice buf l.index a.size ++ r.1, r.2)
      | .leave => some ([], l.index, as)
      | .exit _ => none

/-! ## One pass -/

/-- A pass that goes on: some bytes, or an interruption. -/
theorem pass_again {l l' : Count} {headStr : String} {a : Answer} (h : l.pass headStr a = .again l') :
    l' = { left := l.left - a.size, index := l.index + a.size } := by
  cases a with
  | cnt n =>
    cases n with
    | zero => cases h
    | succ n => exact (Pass.again.inj h).symm
  | failed e => cases e <;> first | exact (Pass.again.inj h).symm | cases h

theorem pass_leave {l : Count} {headStr : String} {a : Answer} (h : l.pass headStr a = .leave) : a = .cnt 0 := by
  cases a with
  | cnt n =>
    cases n with
    | zero => rfl
    | succ n => cases h
  | failed e => cases e <;> cases h

theorem pass_exit {l : Count} {headStr m : String} {a : Answer} (h : l.pass headStr a = .exit m) :
    a = .failed .other := by
  cases a with
  | cnt n =>
    cases n with
    | zero => cases h
    | succ n => cases h
  | failed e => cases e <;> first | rfl | cases h

/-! ## A whole call -/

/-- **A call of `WriteCount`** in which no `write` answers `0` writes everything, in order. -/
theorem writeCount_eq {buf : Nat → UInt8} {l : Count} {as rest : List Answer} {bs : List UInt8} {r : Nat}
    (h : writeCount buf l as = some (bs, r, rest)) (hpos : ∀ a ∈ as, a ≠ .cnt 0) :
    bs = slice buf l.index l.left ∧ r = l.index + l.left ∧ rest <:+ as := by
  induction as generalizing l bs with
  | nil =>
    simp only [writeCount, Option.ite_none_right_eq_some, Option.some.injEq, Prod.mk.injEq] at h
    obtain ⟨hleft, rfl, rfl, rfl⟩ := h
    simp [hleft]
  | cons a as ih =>
    simp only [writeCount] at h
    split at h
    · rename_i hleft
      cases h
      simp [hleft]
    · split at h
      · cases h
      · rename_i hne hsize
        split at h
        · rename_i l' hpass
          obtain ⟨⟨bs', r', rest'⟩, hr, heq⟩ := Option.map_eq_some_iff.1 h
          cases heq
          obtain rfl := pass_again hpass
          obtain ⟨rfl, rfl, hsuffix⟩ := ih hr fun b hb => hpos b (List.mem_cons_of_mem _ hb)
          simp only at hsize ⊢
          refine ⟨?_, by omega, hsuffix.trans (List.suffix_cons _ _)⟩
          rw [← slice_add, Nat.add_sub_cancel' (by omega)]
        · rename_i hpass
          exact absurd (pass_leave hpass) (hpos a List.mem_cons_self)
        · cases h

end SystemFunc.Wrap
