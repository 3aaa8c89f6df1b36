import SystemFunc.MsgQueue.Routing

/-!
# What `communicate` sends

The standard input is read in entries, each a number, a byte that is no digit, and a line.

- `input_entry`: an entry is read whole, and the next one starts behind it;
- `sends_entries`: the calls of `msgsnd` send the entries in turn. Behind the end of the input nothing is read, and every
  further call sends the last entry again.
-/

namespace SystemFunc.MsgQueue

open Http (isspace)
open Slots (slot_set slot_snoc)

variable {v : Env} {s t : State} {i : Nat} {p q : Proc} {rest : List UInt8}

/-! ## Numbers -/

theorem isdigit_of_isDigit {c : Char} (h : c.isDigit = true) : isdigit (UInt8.ofNat c.toNat) = true := by
  obtain ⟨hlow, hhigh⟩ : 48 ≤ c.toNat ∧ c.toNat ≤ 57 := by simpa [Char.isDigit, UInt32.le_iff_toNat_le] using h
  have hval : (UInt8.ofNat c.toNat).toNat = c.toNat :=
    UInt8.toNat_ofNat_of_lt' (Nat.lt_of_le_of_lt hhigh (by decide))
  simp [isdigit, hval, hlow, hhigh]

/-- The bytes of a natural number. -/
theorem decimal_nat (n : Nat) : decimal n = (Nat.toDigits 10 n).map fun c => UInt8.ofNat c.toNat := rfl

theorem isdigit_decimal (n : Nat) : ∀ b ∈ decimal n, isdigit b = true := by
  intro b hb
  obtain ⟨c, hc, rfl⟩ := List.mem_map.1 (decimal_nat n ▸ hb)
  exact isdigit_of_isDigit (Nat.isDigit_of_mem_toDigits (by decide) (by decide) hc)

theorem digitsVal_decimal (n : Nat) : digitsVal (decimal n) = n := by
  have hfold : ∀ (cs : List Char), (∀ c ∈ cs, c.isDigit = true) → ∀ k : Nat,
      (cs.map fun c => UInt8.ofNat c.toNat).foldl (fun n d => 10 * n + (d.toNat - 48)) k = Nat.ofDigitChars 10 cs k := by
    intro cs hcs
    induction cs with
    | nil => intro k; rfl
    | cons c cs ih =>
      intro k
      rw [List.forall_mem_cons] at hcs
      have hhigh : c.toNat ≤ 57 := by
        have hdigit := hcs.1
        simp only [Char.isDigit, UInt32.le_iff_toNat_le, Bool.and_eq_true, decide_eq_true_eq] at hdigit
        exact hdigit.2
      have hval : (UInt8.ofNat c.toNat).toNat = c.toNat :=
        UInt8.toNat_ofNat_of_lt' (Nat.lt_of_le_of_lt hhigh (by decide))
      rw [List.map_cons, List.foldl_cons, ih hcs.2, hval, Nat.ofDigitChars_cons]
      rfl
  rw [digitsVal, decimal_nat, hfold _ fun c hc => Nat.isDigit_of_mem_toDigits (by decide) (by decide) hc]
  exact Nat.ofDigitChars_ten_toDigits

theorem decimal_ne_nil (n : Nat) : decimal n ≠ [] := by
  rw [decimal_nat, Ne, List.map_eq_nil_iff]
  exact Nat.toDigits_ne_nil

/-- A digit is no white space and no sign. -/
theorem isdigit_plain {b : UInt8} (h : isdigit b = true) : isspace b = false ∧ b ≠ 45 ∧ b ≠ 43 := by
  obtain ⟨hlow, hhigh⟩ : 48 ≤ b.toNat ∧ b.toNat ≤ 57 := by simpa [isdigit] using h
  have hne : ∀ c : UInt8, c.toNat < 48 → b ≠ c := fun c hc he => by
    rw [he] at hlow
    omega
  refine ⟨?_, hne 45 (by decide), hne 43 (by decide)⟩
  have hspace : b ≠ 32 := hne 32 (by decide)
  simp only [isspace, hspace, decide_false, Bool.false_or, Bool.and_eq_false_iff, decide_eq_false_iff_not]
  omega

/-- A number is read to its last digit. -/
theorem scanLd_decimal (k : Int) {n : Nat} (hn : (n : Int) ≤ LONG_MAX) {b : UInt8} (hb : isdigit b = false) :
    scanLd k (decimal n ++ b :: rest) = ((n : Int), b :: rest) := by
  have hdigits := isdigit_decimal n
  have htake : (decimal n ++ b :: rest).takeWhile isdigit = decimal n := by
    rw [List.takeWhile_append_of_pos hdigits, List.takeWhile_cons, hb]
    exact List.append_nil _
  have hdrop : (decimal n ++ b :: rest).dropWhile isdigit = b :: rest := by
    rw [List.dropWhile_append_of_pos hdigits, List.dropWhile_cons, hb]
    rfl
  obtain ⟨d, ds, hcons⟩ := List.exists_cons_of_ne_nil (decimal_ne_nil n)
  obtain ⟨hspace, hminus, hplus⟩ := isdigit_plain (hdigits d (hcons ▸ List.mem_cons_self))
  have hskip : (decimal n ++ b :: rest).dropWhile isspace = decimal n ++ b :: rest := by
    rw [hcons, List.cons_append, List.dropWhile_cons, hspace]
    rfl
  have hhead : (decimal n ++ b :: rest).head? = some d := by
    rw [hcons]
    rfl
  have hmin : min LONG_MAX (n : Int) = n := by omega
  simp only [scanLd, hskip, hhead, Option.some.injEq, hminus, hplus, or_self, if_false, htake, hdrop,
    decimal_ne_nil, digitsVal_decimal, hmin]

/-! ## Entries -/

theorem Proc.Sends.eq {m m' : Msg} (h : p.Sends m) (h' : p.Sends m') : m = m' := by
  obtain ⟨hmtype, htext⟩ := h
  obtain ⟨hmtype', htext'⟩ := h'
  have heq : m.text = m'.text := Except.ok.inj (htext.symm.trans htext')
  cases m
  cases m'
  cases hmtype.symm.trans hmtype'
  cases heq
  rfl

/-- A number that is a `long`, a byte that is no digit, and a line without a `NUL` that fits into `mtext`. -/
structure Entry where
  mtype : Nat
  sep : UInt8
  line : List UInt8
  long : (mtype : Int) ≤ LONG_MAX
  nodigit : isdigit sep = false
  newline : 10 ∉ line
  nul : 0 ∉ line
  short : line.length + 1 < MTEXT_SIZE

/-- The bytes of an entry in the input. -/
def Entry.render (e : Entry) : List UInt8 := decimal e.mtype ++ e.sep :: (e.line ++ [10])

def Entry.msg (e : Entry) : Msg := ⟨e.mtype, e.line ++ [10]⟩

/-- **An entry is read whole.** -/
theorem input_entry (buf : Msgbuf) (e : Entry) :
    (buf.input (e.render ++ rest)).2 = rest ∧ (buf.input (e.render ++ rest)).1.mtype = e.msg.mtype ∧
      readStr (buf.input (e.render ++ rest)).1.mtext.cells = .ok e.msg.text := by
  have hscan : scanLd buf.mtype (e.render ++ rest) = ((e.mtype : Int), e.sep :: (e.line ++ 10 :: rest)) := by
    rw [Entry.render, List.append_assoc, List.cons_append, List.append_assoc, List.singleton_append]
    exact scanLd_decimal buf.mtype e.long e.nodigit
  have hlen : (e.line ++ [10]).length ≤ MTEXT_SIZE - 1 := by
    rw [List.length_append, List.length_singleton]
    exact Nat.le_sub_one_of_lt e.short
  have hline : fgetsLine (e.line ++ 10 :: rest) = e.line ++ [10] := by
    rw [fgetsLine, Lines.first_of_line e.newline]
    exact List.take_of_length_le hlen
  have hne : e.line ++ 10 :: rest ≠ [] := by simp
  have hdrop : (e.line ++ 10 :: rest).drop (e.line ++ [10]).length = rest := by
    have hassoc : e.line ++ 10 :: rest = (e.line ++ [10]) ++ rest := (List.append_cons ..)
    rw [hassoc]
    exact List.drop_left
  have hnul : 0 ∉ e.line ++ [10] := by simpa using e.nul
  simp only [Msgbuf.input, hscan, List.drop_one, List.tail_cons, fgets, if_neg hne, hline, hdrop, overwrite]
  refine ⟨trivial, rfl, ?_⟩
  rw [List.append_assoc]
  exact readStr_append_nul hnul

/-! ## One process -/

/-- What a step does to one process. -/
inductive Turn (p : Proc) : Proc → Prop
  | input (hctrl : p.ctrl = .input) : Turn p p.input
  | exit : Turn p p.exit
  | tries {m : Msg} (live : Bool) (hctrl : p.ctrl = .msgsnd) (hm : p.Sends m) : Turn p { p.tries m with live := live }
  | receive {m : Msg} (h : (m.text ++ [0]).length ≤ MTEXT_SIZE) : Turn p (p.receive m h)
  | print : Turn p p.print

theorem set_turn {j : Nat} {r : Proc} (hp : s.procs[j]? = some p) (hq : (s.procs.set j q)[i]? = some r)
    (hturn : Turn p q) : s.procs[i]? = some r ∨ ∃ p, s.procs[i]? = some p ∧ Turn p r := by
  obtain ⟨rfl, rfl⟩ | ⟨-, hq⟩ := slot_set hq
  · exact .inr ⟨p, hp, hturn⟩
  · exact .inl hq

/-- A process is as it was, or new, or has had its turn. -/
theorem Moves.proc (h : Moves v s t) (hq : t.procs[i]? = some q) :
    s.procs[i]? = some q ∨ (∃ reader, q = v.proc i reader) ∨ ∃ p, s.procs[i]? = some p ∧ Turn p q := by
  cases h with
  | wild => exact .inl hq
  | fork reader =>
    obtain ⟨rfl, rfl⟩ | hq := slot_snoc hq
    · exact .inr (.inl ⟨reader, rfl⟩)
    · exact .inl hq
  | input hp hctrl => exact (set_turn hp hq (.input hctrl)).imp_right .inr
  | exit hp => exact (set_turn hp hq .exit).imp_right .inr
  | tries live hp hctrl hm => exact (set_turn hp hq (.tries live hctrl hm)).imp_right .inr
  | @post j p m hp hctrl hm =>
    exact (set_turn hp hq (.tries (p.tries m).live hctrl hm)).imp_right .inr
  | receive hp _ _ hfits => exact (set_turn hp hq (.receive hfits)).imp_right .inr
  | print hp => exact (set_turn hp hq .print).imp_right .inr

section Entries

variable {es : List Entry} {last : Entry}

/-- The entry that the call `k` of `msgsnd` sends. -/
def entryAt (es : List Entry) (last : Entry) (k : Nat) : Entry := (es[k]?).getD last

/-- The number of times that `communicate` has read. -/
def Proc.rounds (p : Proc) : Nat := p.tried.length + if p.ctrl = .msgsnd then 1 else 0

theorem entryAt_of_le {k : Nat} (hlast : es.getLast? = some last) (hk : es.length ≤ k + 1) :
    entryAt es last k = last := by
  unfold entryAt
  obtain hk | hk := Nat.lt_or_ge k es.length
  · obtain rfl : k = es.length - 1 := by omega
    rw [← List.getLast?_eq_getElem?, hlast]
    rfl
  · rw [List.getElem?_eq_none hk]
    rfl

structure Reads (es : List Entry) (last : Entry) (p : Proc) : Prop where
  stdin : p.stdin = ((es.drop p.rounds).map Entry.render).flatten
  buf : ∀ k, p.rounds = k + 1 → p.Sends (entryAt es last k).msg
  tried : ∀ k m, p.tried[k]? = some m → m = (entryAt es last k).msg

theorem reads_start (es : List Entry) (last : Entry) (reader : Bool)
    (hstdin : v.stdin i = (es.map Entry.render).flatten) : Reads es last (v.proc i reader) where
  stdin := hstdin
  buf k hk := by cases hk
  tried k m hm := by cases hm

/-- The next entry is read, or the last one is kept. -/
theorem Reads.input (h : Reads es last p) (hlast : es.getLast? = some last) (hctrl : p.ctrl = .input) :
    Reads es last p.input := by
  have hrounds : p.rounds = p.tried.length := by simp [Proc.rounds, hctrl]
  have hnext : p.input.rounds = p.tried.length + 1 := rfl
  have hstdin := h.stdin
  rw [hrounds] at hstdin
  by_cases hk : p.tried.length < es.length
  · have hdrop := List.drop_eq_getElem_cons hk
    rw [hdrop, List.map_cons, List.flatten_cons] at hstdin
    obtain ⟨hrest, hmtype, htext⟩ := @input_entry
      ((es.drop (p.tried.length + 1)).map Entry.render).flatten p.sendBuf es[p.tried.length]
    refine ⟨?_, fun k hk' => ?_, h.tried⟩
    · rw [hnext, Proc.input, hstdin]
      exact hrest
    · obtain rfl : k = p.tried.length := by omega
      rw [entryAt, List.getElem?_eq_getElem hk, Option.getD_some]
      refine ⟨?_, ?_⟩ <;> rw [Proc.input, hstdin]
      · exact hmtype
      · exact htext
  · rw [Nat.not_lt] at hk
    rw [List.drop_of_length_le hk] at hstdin
    refine ⟨?_, fun k hk' => ?_, h.tried⟩
    · rw [hnext, List.drop_of_length_le (Nat.le_succ_of_le hk), Proc.input, hstdin]
      rfl
    · obtain rfl : k = p.tried.length := by omega
      -- There was an entry, so that something has been read before.
      have hpos : 0 < es.length := List.length_pos_iff.2 fun he => by rw [he] at hlast; cases hlast
      obtain ⟨n, hn⟩ := Nat.exists_eq_succ_of_ne_zero (Nat.ne_of_gt (Nat.lt_of_lt_of_le hpos hk))
      have hsends := h.buf n (hrounds.trans hn)
      have hle : es.length ≤ n + 1 := hk.trans_eq hn
      rw [entryAt_of_le hlast hle] at hsends
      rw [entryAt_of_le hlast (Nat.le_succ_of_le hk), Proc.input, hstdin]
      exact hsends

theorem Reads.tries {m : Msg} (h : Reads es last p) (hctrl : p.ctrl = .msgsnd) (hm : p.Sends m) (live : Bool) :
    Reads es last { p.tries m with live := live } := by
  have hrounds : p.rounds = p.tried.length + 1 := by simp [Proc.rounds, hctrl]
  have hnext : Proc.rounds { p.tries m with live := live } = p.rounds := by
    simp [Proc.rounds, Proc.tries, hctrl]
  have heq : m = (entryAt es last p.tried.length).msg := hm.eq (h.buf _ hrounds)
  refine ⟨?_, fun k hk => ?_, fun k m' hm' => ?_⟩
  · rw [hnext]
    exact h.stdin
  · rw [hnext] at hk
    exact h.buf k hk
  · rw [Proc.tries, List.getElem?_append] at hm'
    split at hm'
    · exact h.tried k m' hm'
    next hk =>
      rw [Nat.not_lt] at hk
      obtain ⟨hlt, hget⟩ := List.getElem?_eq_some_iff.1 hm'
      rw [List.length_singleton] at hlt
      obtain rfl : k = p.tried.length := by omega
      rw [Nat.sub_self, List.getElem?_cons_zero] at hm'
      cases hm'
      exact heq

theorem Reads.turn (h : Reads es last p) (hlast : es.getLast? = some last) (hturn : Turn p q) : Reads es last q := by
  cases hturn with
  | input hctrl => exact h.input hlast hctrl
  | exit => exact ⟨h.stdin, h.buf, h.tried⟩
  | tries live hctrl hm => exact h.tries hctrl hm live
  | receive hfits => exact ⟨h.stdin, h.buf, h.tried⟩
  | print => exact ⟨h.stdin, h.buf, h.tried⟩

theorem reads_run {as : List Act} (hr : Steps.run (step v) start as = some s) (hlast : es.getLast? = some last)
    (hstdin : v.stdin i = (es.map Entry.render).flatten) : ∀ p, s.procs[i]? = some p → Reads es last p := by
  refine Steps.run_inv (P := fun s => ∀ p, s.procs[i]? = some p → Reads es last p) ?_ (fun p hp => by cases hp) hr
  intro s a t h hs q hq
  obtain hp | ⟨reader, rfl⟩ | ⟨p, hp, hturn⟩ := (step_moves hs).proc hq
  · exact h q hp
  · exact reads_start es last reader hstdin
  · exact (h p hp).turn hlast hturn

theorem entryAt_mem {k : Nat} (hlast : es.getLast? = some last) : entryAt es last k ∈ es := by
  unfold entryAt
  cases hk : es[k]? with
  | none => exact List.mem_of_getLast? hlast
  | some e => exact List.mem_of_getElem? hk

/-- **The calls of `msgsnd` send the entries of the input in turn, and then the last one again and again**; nothing else
of the process gets into the queue. -/
theorem sends_entries {as : List Act} (hr : Steps.run (step v) start as = some s) (hlast : es.getLast? = some last)
    (hstdin : v.stdin i = (es.map Entry.render).flatten) (hp : s.procs[i]? = some p) :
    (p.tried = (List.range p.tried.length).map fun k => (entryAt es last k).msg) ∧
      ∀ m, (i, m) ∈ s.posted → ∃ e ∈ es, m = e.msg := by
  have htried : p.tried = (List.range p.tried.length).map fun k => (entryAt es last k).msg := by
    refine List.ext_getElem? fun k => ?_
    by_cases hk : k < p.tried.length
    · have heq := (reads_run hr hlast hstdin p hp).tried k p.tried[k] (List.getElem?_eq_getElem hk)
      rw [List.getElem?_map, List.getElem?_range hk, List.getElem?_eq_getElem hk, heq]
      rfl
    · rw [List.getElem?_eq_none (Nat.not_lt.1 hk), List.getElem?_eq_none]
      simpa using hk
  refine ⟨htried, fun m hm => ?_⟩
  have hof : (i, m) ∈ KeyedFifo.ofKey Prod.fst i s.posted := List.mem_filter.2 ⟨hm, by simp⟩
  have hmem : m ∈ p.tried := ((inv_run hr).procs i p hp).posted.subset (List.mem_map_of_mem hof)
  rw [htried] at hmem
  obtain ⟨k, -, rfl⟩ := List.mem_map.1 hmem
  exact ⟨entryAt es last k, entryAt_mem hlast, rfl⟩

end Entries

/-- What is typed in process 0 of `threeProcs`. -/
def typed : List Entry :=
  let entry (mtype : Nat) (b : UInt8) (h : (mtype : Int) ≤ LONG_MAX ∧ 10 ≠ b ∧ 0 ≠ b) : Entry :=
    { mtype := mtype
      sep := 10
      line := [b]
      long := h.1
      nodigit := rfl
      newline := fun hb => h.2.1 (List.mem_singleton.1 hb)
      nul := fun hb => h.2.2 (List.mem_singleton.1 hb)
      short := (by decide : 2 < MTEXT_SIZE) }
  [entry 7 104 (by decide), entry 9 105 (by decide), entry 7 106 (by decide)]

/-- The last message is tried once more in place of a fourth. -/
theorem sends_entries_threeProcs : ∃ s p, Steps.run (step threeProcs) start threeProcsRun = some s ∧
    s.procs[0]? = some p ∧ p.tried.length = 4 ∧ p.tried.map Msg.mtype = [7, 9, 7, 7] ∧
    ∀ m, (0, m) ∈ s.posted → ∃ e ∈ typed, m = e.msg := by
  have hr : Steps.run (step threeProcs) start threeProcsRun = some _ := rfl
  have hlast : typed.getLast? = some _ := rfl
  exact ⟨_, _, hr, rfl, rfl, rfl, (sends_entries hr hlast rfl rfl).2⟩

end SystemFunc.MsgQueue
