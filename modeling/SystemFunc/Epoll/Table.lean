import SystemFunc.Epoll.Normal
import SystemFunc.Lib.Slots

/-!
# The blocks, registrations, descriptors and connections of `epoll_normal.c`

`Table` relates them: a block belongs to one registration, and a connection has been sent all bytes read from it but
those in its node, which waits for room exactly when there are some. A connection changes in its place (`Table.serve`),
ends (`Table.close`) or begins (`Table.open_conn`).
-/

namespace SystemFunc.Epoll

open Buffer Entries Slots

variable {lfd : Nat} {s t : State} {ptr fd k : Nat} {n m : Node} {c d : Conn} {r : Registration} {e : Event}
  {evs : List Event}

/-! ## The table -/

/-- What has been read from a connection has been written, or is in its node. -/
structure Buffered (c : Conn) (n : Node) (epollout : Bool) : Prop where
  got_le : c.got ≤ c.stream.length
  split : c.stream.take c.got = c.out ++ slice n.buf n.wIndex n.bufLen
  fits : n.wIndex + n.bufLen ≤ BUF_SIZE
  mask : epollout = true ↔ 0 < n.bufLen

structure Table (lfd : Nat) (s : State) : Prop where
  listen : s.fds lfd = some .listen
  lreg : ∀ r, s.reg lfd = some r → r.epollout = false
  block : ∀ ptr n, s.heap ptr = some n → ∃ r, s.reg n.fd = some r ∧ r.ptr = ptr
  reg : ∀ fd r, s.reg fd = some r → ∃ n, s.heap r.ptr = some n ∧ n.fd = fd
  conn : ∀ fd r n, s.reg fd = some r → s.heap r.ptr = some n → fd ≠ lfd → ∃ k c, s.fds fd = some (.conn k) ∧
    s.conns[k]? = some c ∧ c.closed = false ∧ Buffered c n r.epollout
  open_reg : ∀ fd k, s.fds fd = some (.conn k) → (s.reg fd).isSome
  inj : ∀ fd fd' k, s.fds fd = some (.conn k) → s.fds fd' = some (.conn k) → fd = fd'
  done : ∀ (k : Nat) (c : Conn), s.conns[k]? = some c → c.closed = true → c.out = c.stream ∧ c.eof = true
  live : ∀ (k : Nat) (c : Conn), s.conns[k]? = some c → c.closed = false → ∃ fd, s.fds fd = some (.conn k)

theorem lt_of_getElem? {α : Type} {l : List α} {i : Nat} {a : α} (h : l[i]? = some a) : i < l.length :=
  (List.getElem?_eq_some_iff.1 h).1

namespace Table

variable (h : Table lfd s)
include h

/-- Two registrations have different nodes. -/
theorem reg_inj {fd' : Nat} {r' : Registration} (hr : s.reg fd = some r) (hr' : s.reg fd' = some r')
    (hp : r.ptr = r'.ptr) : fd = fd' := by
  obtain ⟨n, hn, rfl⟩ := h.reg fd r hr
  obtain ⟨n', hn', rfl⟩ := h.reg fd' r' hr'
  rw [← hp, hn] at hn'
  exact congrArg Node.fd (Option.some.inj hn')

/-- The node of a registration, at its own descriptor only. -/
theorem fd_ne {p : Nat} {n' : Node} (hr : s.reg fd = some r) (hn' : s.heap p = some n') (hp : p ≠ r.ptr) :
    n'.fd ≠ fd := by
  rintro rfl
  obtain ⟨r', hr', rfl⟩ := h.block p n' hn'
  rw [hr] at hr'
  cases hr'
  exact hp rfl

theorem ptr_ne {fd' : Nat} {r' : Registration} (hr : s.reg fd = some r) (hr' : s.reg fd' = some r') (hne : fd' ≠ fd) :
    r'.ptr ≠ r.ptr := fun hp => hne (h.reg_inj hr' hr hp)

theorem ne_lfd (hk : s.fds fd = some (.conn k)) : fd ≠ lfd := by
  rintro rfl
  rw [h.listen] at hk
  cases hk

theorem get (hn : s.heap ptr = some n) (hk : s.fds n.fd = some (.conn k)) (hc : s.conns[k]? = some c) :
    c.closed = false ∧ ∃ r, s.reg n.fd = some r ∧ r.ptr = ptr ∧ Buffered c n r.epollout := by
  obtain ⟨r, hr, rfl⟩ := h.block ptr n hn
  obtain ⟨k', c', hk', hc', hclosed, hbuf⟩ := h.conn n.fd r n hr hn (h.ne_lfd hk)
  cases hk.symm.trans hk'
  cases hc.symm.trans hc'
  exact ⟨hclosed, r, hr, rfl, hbuf⟩

theorem with_ctrl (ctrl : Ctrl) : Table lfd { s with ctrl := ctrl } :=
  ⟨h.listen, h.lreg, h.block, h.reg, h.conn, h.open_reg, h.inj, h.done, h.live⟩

/-- A connection changes, with its node and its registration. -/
theorem serve (hn : s.heap ptr = some n) (hk : s.fds n.fd = some (.conn k)) (hc : s.conns[k]? = some c)
    (hm : m.fd = n.fd) (hd : d.closed = false) {b : Bool} (hbuf : Buffered d m b) :
    Table lfd { s with
      heap := s.heap.add ptr m
      reg := s.reg.add n.fd { epollout := b, ptr := ptr }
      conns := s.conns.set k d } := by
  obtain ⟨-, r, hr, rfl, -⟩ := h.get hn hk hc
  have hlt := lt_of_getElem? hc
  constructor
  · exact h.listen
  · intro r' hr'
    obtain ⟨he, -⟩ | ⟨-, hr''⟩ := add_eq_some.1 hr'
    · exact absurd he.symm (h.ne_lfd hk)
    · exact h.lreg r' hr''
  · intro p m' hm'
    obtain ⟨rfl, rfl⟩ | ⟨hp, hm''⟩ := add_eq_some.1 hm'
    · exact ⟨_, add_eq_some.2 (.inl ⟨hm, rfl⟩), rfl⟩
    · obtain ⟨r', hr', hp'⟩ := h.block p m' hm''
      exact ⟨r', add_eq_some.2 (.inr ⟨h.fd_ne hr hm'' hp, hr'⟩), hp'⟩
  · intro fd r' hr'
    obtain ⟨rfl, rfl⟩ | ⟨hfd, hr''⟩ := add_eq_some.1 hr'
    · exact ⟨m, add_self .., hm⟩
    · obtain ⟨n', hn', hfd'⟩ := h.reg fd r' hr''
      exact ⟨n', add_eq_some.2 (.inr ⟨h.ptr_ne hr hr'' hfd, hn'⟩), hfd'⟩
  · intro fd r' m' hr' hm' hfd
    obtain ⟨rfl, rfl⟩ | ⟨hfdn, hr''⟩ := add_eq_some.1 hr'
    · obtain ⟨-, rfl⟩ | ⟨hp, -⟩ := add_eq_some.1 hm'
      · exact ⟨k, d, hk, List.getElem?_set_self hlt, hd, hbuf⟩
      · exact absurd rfl hp
    · obtain ⟨hp, -⟩ | ⟨-, hm''⟩ := add_eq_some.1 hm'
      · exact absurd hp (h.ptr_ne hr hr'' hfdn)
      · obtain ⟨k', c', hk', hc', hrest⟩ := h.conn fd r' m' hr'' hm'' hfd
        refine ⟨k', c', hk', (List.getElem?_set_ne ?_).trans hc', hrest⟩
        rintro rfl
        exact hfdn (h.inj fd n.fd k hk' hk)
  · intro fd k' hk'
    obtain ⟨r', hr'⟩ := Option.isSome_iff_exists.1 (h.open_reg fd k' hk')
    by_cases hfd : fd = n.fd
    · exact Option.isSome_of_eq_some (add_eq_some.2 (.inl ⟨hfd, rfl⟩))
    · exact Option.isSome_of_eq_some (add_eq_some.2 (.inr ⟨hfd, hr'⟩))
  · exact h.inj
  · intro k' c' hc' hcl
    obtain ⟨-, rfl⟩ | ⟨-, hc''⟩ := slot_set hc'
    · rw [hd] at hcl
      cases hcl
    · exact h.done k' c' hc'' hcl
  · intro k' c' hc' hcl
    obtain ⟨rfl, -⟩ | ⟨-, hc''⟩ := slot_set hc'
    · exact ⟨n.fd, hk⟩
    · exact h.live k' c' hc'' hcl

/-- A connection ends, that has been sent everything. -/
theorem close (hn : s.heap ptr = some n) (hk : s.fds n.fd = some (.conn k)) (hc : s.conns[k]? = some c)
    (hout : c.out = c.stream) (heof : c.eof = true) :
    Table lfd { s with
      heap := s.heap.remove ptr
      reg := s.reg.remove n.fd
      fds := s.fds.remove n.fd
      conns := s.conns.set k { c with closed := true } } := by
  obtain ⟨-, r, hr, rfl, -⟩ := h.get hn hk hc
  have hlt := lt_of_getElem? hc
  constructor
  · exact remove_eq_some.2 ⟨Ne.symm (h.ne_lfd hk), h.listen⟩
  · exact fun r' hr' => h.lreg r' (remove_eq_some.1 hr').2
  · intro p m' hm'
    obtain ⟨hp, hm''⟩ := remove_eq_some.1 hm'
    obtain ⟨r', hr', hp'⟩ := h.block p m' hm''
    exact ⟨r', remove_eq_some.2 ⟨h.fd_ne hr hm'' hp, hr'⟩, hp'⟩
  · intro fd r' hr'
    obtain ⟨hfd, hr''⟩ := remove_eq_some.1 hr'
    obtain ⟨n', hn', hfd'⟩ := h.reg fd r' hr''
    exact ⟨n', remove_eq_some.2 ⟨h.ptr_ne hr hr'' hfd, hn'⟩, hfd'⟩
  · intro fd r' m' hr' hm' hfd
    obtain ⟨hfdn, hr''⟩ := remove_eq_some.1 hr'
    obtain ⟨k', c', hk', hc', hrest⟩ := h.conn fd r' m' hr'' (remove_eq_some.1 hm').2 hfd
    refine ⟨k', c', remove_eq_some.2 ⟨hfdn, hk'⟩, (List.getElem?_set_ne ?_).trans hc', hrest⟩
    rintro rfl
    exact hfdn (h.inj fd n.fd k hk' hk)
  · intro fd k' hk'
    obtain ⟨hfd, hk''⟩ := remove_eq_some.1 hk'
    obtain ⟨r', hr'⟩ := Option.isSome_iff_exists.1 (h.open_reg fd k' hk'')
    exact Option.isSome_of_eq_some (remove_eq_some.2 ⟨hfd, hr'⟩)
  · exact fun fd fd' k' hk' hk'' => h.inj fd fd' k' (remove_eq_some.1 hk').2 (remove_eq_some.1 hk'').2
  · intro k' c' hc' hcl
    obtain ⟨-, rfl⟩ | ⟨-, hc''⟩ := slot_set hc'
    · exact ⟨hout, heof⟩
    · exact h.done k' c' hc'' hcl
  · intro k' c' hc' hcl
    obtain ⟨-, rfl⟩ | ⟨hkk, hc''⟩ := slot_set hc'
    · cases hcl
    · obtain ⟨fd, hfd⟩ := h.live k' c' hc'' hcl
      refine ⟨fd, remove_eq_some.2 ⟨?_, hfd⟩⟩
      rintro rfl
      cases hk.symm.trans hfd
      exact hkk rfl

/-- A connection begins. -/
theorem open_conn {cfd addr : Nat} (hcfd : s.fds cfd = none) (haddr : s.heap addr = none) :
    s.reg cfd = none ∧ Table lfd { s with
      heap := s.heap.add addr (createNode cfd)
      reg := s.reg.add cfd { epollout := false, ptr := addr }
      fds := s.fds.add cfd (.conn s.conns.length)
      conns := s.conns ++ [{ stream := [], got := 0, out := [], eof := false, closed := false }] } := by
  have hne : cfd ≠ lfd := Ne.symm (ne_of_none hcfd h.listen)
  have hreg : s.reg cfd = none := by
    cases hr : s.reg cfd with
    | none => rfl
    | some r =>
      obtain ⟨n, hn, -⟩ := h.reg cfd r hr
      obtain ⟨k, c, hk, -⟩ := h.conn cfd r n hr hn hne
      exact absurd rfl (ne_of_none hcfd hk)
  have hvalid : ∀ {fd k}, s.fds fd = some (.conn k) → k < s.conns.length := by
    intro fd k hfd
    obtain ⟨r, hr⟩ := Option.isSome_iff_exists.1 (h.open_reg fd k hfd)
    obtain ⟨n, hn, -⟩ := h.reg fd r hr
    obtain ⟨k', c, hk, hc, -⟩ := h.conn fd r n hr hn (h.ne_lfd hfd)
    cases hfd.symm.trans hk
    exact lt_of_getElem? hc
  have hfds : ∀ {fd k}, s.fds.add cfd (.conn s.conns.length) fd = some (.conn k) →
      fd = cfd ∧ k = s.conns.length ∨ fd ≠ cfd ∧ s.fds fd = some (.conn k) ∧ k < s.conns.length := by
    intro fd k hk
    obtain ⟨hfd, he⟩ | ⟨hfd, hk'⟩ := add_eq_some.1 hk
    · cases he
      exact .inl ⟨hfd, rfl⟩
    · exact .inr ⟨hfd, hk', hvalid hk'⟩
  refine ⟨hreg, ?_⟩
  constructor
  · exact add_eq_some.2 (.inr ⟨Ne.symm hne, h.listen⟩)
  · intro r' hr'
    obtain ⟨he, -⟩ | ⟨-, hr''⟩ := add_eq_some.1 hr'
    · exact absurd he.symm hne
    · exact h.lreg r' hr''
  · intro p m' hm'
    obtain ⟨rfl, rfl⟩ | ⟨hp, hm''⟩ := add_eq_some.1 hm'
    · exact ⟨_, add_self .., rfl⟩
    · obtain ⟨r', hr', hp'⟩ := h.block p m' hm''
      exact ⟨r', add_eq_some.2 (.inr ⟨ne_of_none hreg hr', hr'⟩), hp'⟩
  · intro fd r' hr'
    obtain ⟨rfl, rfl⟩ | ⟨hfd, hr''⟩ := add_eq_some.1 hr'
    · exact ⟨_, add_self .., rfl⟩
    · obtain ⟨n', hn', hfd'⟩ := h.reg fd r' hr''
      exact ⟨n', add_eq_some.2 (.inr ⟨ne_of_none haddr hn', hn'⟩), hfd'⟩
  · intro fd r' m' hr' hm' hfd
    obtain ⟨rfl, rfl⟩ | ⟨hfdc, hr''⟩ := add_eq_some.1 hr'
    · obtain ⟨-, rfl⟩ | ⟨hp, -⟩ := add_eq_some.1 hm'
      · refine ⟨_, _, add_self .., List.getElem?_concat_length, rfl, Nat.le_refl _, rfl, Nat.zero_le _, ?_⟩
        exact ⟨nofun, fun hlt => absurd hlt (Nat.lt_irrefl _)⟩
      · exact absurd rfl hp
    · obtain ⟨n', hn', -⟩ := h.reg fd r' hr''
      obtain ⟨hp, -⟩ | ⟨-, hm''⟩ := add_eq_some.1 hm'
      · exact absurd hp (ne_of_none haddr hn')
      · obtain ⟨k', c', hk', hc', hrest⟩ := h.conn fd r' m' hr'' hm'' hfd
        exact ⟨k', c', add_eq_some.2 (.inr ⟨hfdc, hk'⟩),
          slot_append hc', hrest⟩
  · intro fd k' hk'
    obtain ⟨rfl, -⟩ | ⟨hfd, hk'', -⟩ := hfds hk'
    · exact Option.isSome_of_eq_some (add_self ..)
    · obtain ⟨r', hr'⟩ := Option.isSome_iff_exists.1 (h.open_reg fd k' hk'')
      exact Option.isSome_of_eq_some (add_eq_some.2 (.inr ⟨hfd, hr'⟩))
  · intro fd fd' k' hk' hk''
    obtain ⟨rfl, rfl⟩ | ⟨-, hk₁, hlt⟩ := hfds hk'
    · obtain ⟨rfl, -⟩ | ⟨-, -, hlt⟩ := hfds hk''
      · rfl
      · exact absurd hlt (Nat.lt_irrefl _)
    · obtain ⟨-, rfl⟩ | ⟨-, hk₂, -⟩ := hfds hk''
      · exact absurd hlt (Nat.lt_irrefl _)
      · exact h.inj fd fd' k' hk₁ hk₂
  · intro k' c' hc' hcl
    obtain ⟨-, rfl⟩ | hc'' := slot_snoc hc'
    · cases hcl
    · exact h.done k' c' hc'' hcl
  · intro k' c' hc' hcl
    obtain ⟨rfl, -⟩ | hc'' := slot_snoc hc'
    · exact ⟨cfd, add_self ..⟩
    · obtain ⟨fd, hfd⟩ := h.live k' c' hc'' hcl
      exact ⟨fd, add_eq_some.2 (.inr ⟨ne_of_none hcfd hfd, hfd⟩)⟩

end Table

/-! ## The buffers -/

namespace Buffered

theorem read {cnt : Nat} (h : Buffered c n false) (hcnt : 1 ≤ cnt ∧ cnt ≤ BUF_SIZE ∧ c.got + cnt ≤ c.stream.length) :
    Buffered { c with got := c.got + cnt }
      { n with buf := store n.buf 0 ((c.stream.drop c.got).take cnt), bufLen := cnt, wIndex := 0 } true := by
  obtain ⟨hpos, hsize, hle⟩ := hcnt
  have hempty : n.bufLen = 0 := by
    by_contra hne
    exact absurd (h.mask.2 (Nat.pos_of_ne_zero hne)) nofun
  have hlen : ((c.stream.drop c.got).take cnt).length = cnt := by
    rw [List.length_take, List.length_drop]
    omega
  refine ⟨hle, ?_, Nat.le_trans (Nat.le_of_eq (Nat.zero_add cnt)) hsize, ⟨fun _ => hpos, fun _ => rfl⟩⟩
  have hold : c.stream.take c.got = c.out := by
    rw [h.split, hempty, slice_zero, List.append_nil]
  have hnew : slice (store n.buf 0 ((c.stream.drop c.got).take cnt)) 0 cnt = (c.stream.drop c.got).take cnt := by
    have hself : slice (store n.buf 0 ((c.stream.drop c.got).take cnt)) 0 ((c.stream.drop c.got).take cnt).length = _ :=
      slice_store_self
    rwa [hlen] at hself
  show c.stream.take (c.got + cnt) = c.out ++ slice _ 0 cnt
  rw [List.take_add, hold, hnew]

theorem write {cnt : Nat} (h : Buffered c n true) (hcnt : cnt ≤ n.bufLen) :
    Buffered { c with out := c.out ++ slice n.buf n.wIndex cnt }
      { n with bufLen := n.bufLen - cnt, wIndex := n.wIndex + cnt } (decide (0 < n.bufLen - cnt)) := by
  refine ⟨h.got_le, ?_, ?_, decide_eq_true_iff⟩
  · obtain ⟨j, hj⟩ := Nat.exists_eq_add_of_le hcnt
    show c.stream.take c.got = c.out ++ slice n.buf n.wIndex cnt ++ slice n.buf (n.wIndex + cnt) (n.bufLen - cnt)
    rw [h.split, List.append_assoc, hj, slice_add, Nat.add_sub_cancel_left]
  · have hfits := h.fits
    show n.wIndex + cnt + (n.bufLen - cnt) ≤ BUF_SIZE
    omega

/-- More of the stream arrives, or its end. -/
theorem arrive {b : Bool} (h : Buffered c n b) (bytes : List UInt8) (eof : Bool) :
    Buffered { c with stream := c.stream ++ bytes, eof := eof } n b := by
  refine ⟨?_, ?_, h.fits, h.mask⟩
  · show c.got ≤ (c.stream ++ bytes).length
    rw [List.length_append]
    exact Nat.le_add_right_of_le h.got_le
  · show (c.stream ++ bytes).take c.got = _
    rw [List.take_append_of_le_length h.got_le, h.split]

end Buffered

end SystemFunc.Epoll
