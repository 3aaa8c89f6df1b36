import SystemFunc.CLang
import SystemFunc.Queue.Defs

/-!
# The thread pool of `util/thread_pool/thread_pool.c`: data and helper functions

`ThreadPoolT` is the pool's record. The slots `tid_list` are the block that `thread_pool_init` got from `malloc`;
reading or writing outside of it is undefined. The functions that look for a slot and those that decide how many threads
to create or to stop compute as the source does, on `unsigned int` and `int`.

The two tests of the busy rate are comparisons of a `float`; `BusyRate` is any two such tests, and `ieeeRate` the ones
of the source.
-/

namespace SystemFunc.ThreadPool

/-! ## The busy rate -/

/-- The tests `rate >= 0.7` and `rate < 0.3` of the rate of active to current threads. -/
structure BusyRate where
  ge70 : (act cur : Nat) → Bool
  lt30 : (act cur : Nat) → Bool

/-- `n / d` rounded to the nearest number, ties to the even one. -/
def roundDiv (n d : Nat) : Nat :=
  let q := n / d
  let r := n % d
  if 2 * r < d then q else if d < 2 * r then q + 1 else q + q % 2

/-- `n / d` rounded to `p` significant bits, as a fraction. -/
def roundBits (p n d : Nat) : Nat × Nat :=
  if n = 0 then (0, 1)
  else
    let e := p + d.log2 - n.log2
    let e := if n * 2 ^ e < d * 2 ^ p then e else e - 1
    (roundDiv (n * 2 ^ e) d, 2 ^ e)

/-- `float rate = act_thread_cnt * 1.0 / cur_thread_cnt`: the quotient in `double`, stored as a `float`. -/
def floatRate (act cur : Nat) : Nat × Nat :=
  let q := roundBits 53 act cur
  roundBits 24 q.1 q.2

/-- The tests of the source, on the `double` literals. Without threads the rate is no number (or infinite). -/
def ieeeRate : BusyRate where
  ge70 act cur :=
    if cur = 0 then decide (act ≠ 0)
    else
      let lit := roundBits 53 7 10
      let rate := floatRate act cur
      decide (lit.1 * rate.2 ≤ rate.1 * lit.2)
  lt30 act cur :=
    if cur = 0 then false
    else
      let lit := roundBits 53 3 10
      let rate := floatRate act cur
      decide (rate.1 * lit.2 < lit.1 * rate.2)

/-- As a `float`, seven tenths is less than the literal it is compared to. -/
example : ieeeRate.ge70 7 10 = false ∧ ieeeRate.ge70 8 11 = true := by decide

/-! ## The record -/

/-- `thread_pool_t`: tasks are pointers of a type `τ`, threads ids are numbers and `0` marks an unused slot. The lock
and the condition variables are those of the system of threads. -/
structure ThreadPoolT (τ : Type) where
  taskQueue : QueueT τ
  tidList : List Nat
  minThreadCnt : Nat
  maxThreadCnt : Nat
  curThreadCnt : Nat
  actThreadCnt : Nat
  waitExitThreadCnt : Nat
  shutdownFlag : Bool
  deriving DecidableEq

variable {τ : Type}

/-! ## Slots -/

/-- The loop of `FindTidIdx` and `GetUnusedTidIdx`: the first slot from `idx` on that holds `tid`, among `left`. -/
def tidScan (tidList : List Nat) (tid : Nat) : (left idx : Nat) → Except Stop Int
  | 0, _ => .ok (-1)
  | left + 1, idx =>
    match tidList[idx]? with
    | none => .error .undefined
    | some t => if t = tid then .ok idx else tidScan tidList tid left (idx + 1)

def findTidIdx : Option (ThreadPoolT τ) → Nat → Except Stop Int
  | none, _ => .ok (-1)
  | some tp, tid => tidScan tp.tidList tid tp.maxThreadCnt 0

def getUnusedTidIdx : Option (ThreadPoolT τ) → Except Stop Int
  | none => .ok (-1)
  | some tp => tidScan tp.tidList 0 tp.maxThreadCnt 0

/-! ## Sizes -/

def isNeedExpand (R : BusyRate) : Option (ThreadPoolT τ) → Int
  | none => 0
  | some tp => cbool (R.ge70 tp.actThreadCnt tp.curThreadCnt = true)

def expandStrategy (tp : ThreadPoolT τ) : Int :=
  let defaultCnt := 5
  let canExpandCnt := s32 (tp.maxThreadCnt - tp.curThreadCnt)
  if canExpandCnt > defaultCnt then defaultCnt else canExpandCnt

def isNeedShrink (R : BusyRate) : Option (ThreadPoolT τ) → Int
  | none => 0
  | some tp => cbool (R.lt30 tp.actThreadCnt tp.curThreadCnt = true)

/-- `ShrinkStrategy`; `resCnt` is compared as an `unsigned int`. -/
def shrinkStrategy (tp : ThreadPoolT τ) : Int :=
  let resCnt := s32 (tp.actThreadCnt * 2)
  let resCnt := if u32 resCnt < tp.minThreadCnt then s32 tp.minThreadCnt else resCnt
  let diffCnt := s32 (tp.curThreadCnt - resCnt)
  if diffCnt > 0 then diffCnt else 0

end SystemFunc.ThreadPool
