import WanStack.Aftr.Bytes
import WanStack.Lib.OnesComplement

set_option autoImplicit false

/-!
# Checksums that follow a rewriting

`pseudo_cksum`, `fix_cksum` and `fix_msscksum`, which carry a change of a few words
over to a checksum without summing the packet again.
-/
namespace WanStack.Aftr
open OnesComplement

abbrev Addr4 : Type := Vector UInt8 4
abbrev PortNo : Type := Vector UInt8 2

def ICMPTYPE : ℕ := 20
def ICMPCODE : ℕ := 21
def ICMPCKSUMH : ℕ := 22
def ICMPID : ℕ := 24
def UDPLEN : ℕ := IPHDRLEN + 4
def UDPCKSUMH : ℕ := IPHDRLEN + 6
def TCPCKSUMH : ℕ := IPHDRLEN + 16

/-- `memcpy(b + i, v, ...)` for all bytes of `v`. -/
def copyAt (b : Buf) (i : ℕ) (v : Buf) : Buf := b.take i ++ v ++ b.drop (i + v.length)

/-- The two bytes of a 16 bit number, as they are written into a packet. -/
def twoBytes (n : ℕ) : Buf := [hi n, lo n]

@[simp]
theorem twoBytes_length (n : ℕ) : (twoBytes n).length = 2 := rfl

/-- The bytes summed by `pseudo_cksum`: it puts zero in the place of the lifetime and the
    length `pl` in that of the header's checksum. -/
def pseudo (p pl : Buf) : Buf := [0, byteAt p IPPROTO] ++ pl ++ p.drop IPSRC

def pseudoCksum (p pl : Buf) : ℕ := inCksum (pseudo p pl)

def addrSum (a : Addr4) : ℕ := a[0].toNat * 256 + a[1].toNat + a[2].toNat * 256 + a[3].toNat

def portSum (p : PortNo) : ℕ := p[0].toNat * 256 + p[1].toNat

/-- What is added for an address that changes, and what for a port. -/
def addrChange : Option (Addr4 × Addr4) → ℕ
  | none => 0
  | some (oaddr, naddr) =>
    if oaddr ≠ naddr then
      65535 - (addrSum oaddr / 65536 + addrSum oaddr % 65536) + addrSum naddr
    else 0

def portChange : Option (PortNo × PortNo) → ℕ
  | none => 0
  | some (oport, nport) => if oport ≠ nport then 65535 - portSum oport + portSum nport else 0

/-- The checksum `fix_cksum` writes, from the one it reads. A pointer that is `NULL` is
    `none`. -/
def fixCksum (psum : ℕ) (addr : Option (Addr4 × Addr4)) (port : Option (PortNo × PortNo)) : ℕ :=
  cksumFold (65535 - psum + addrChange addr + portChange port)

/-- `fix_cksum(b + i, ...)`. -/
def fixCksumAt (b : Buf) (i : ℕ) (addr : Option (Addr4 × Addr4))
    (port : Option (PortNo × PortNo)) : Buf :=
  copyAt b i (twoBytes (fixCksum (shortAt b i) addr port))

/-! ### Sums of bytes -/

theorem cksumSum_append {a : Buf} (h : a.length % 2 = 0) (b : Buf) :
    cksumSum (a ++ b) = cksumSum a + cksumSum b := by
  induction a using cksumSum.induct with
  | case1 => rw [List.nil_append, cksumSum, Nat.zero_add]
  | case2 x => simp at h
  | case3 x y p ih =>
    have hp : p.length % 2 = 0 := by
      simp only [List.length_cons] at h
      omega
    have := ih hp
    rw [List.cons_append, List.cons_append, cksumSum, cksumSum, this]
    omega

theorem bytesAt_length {b : Buf} {i n : ℕ} (h : i + n ≤ b.length) :
    (bytesAt b i n).length = n := by
  rw [bytesAt, List.length_take, List.length_drop]
  omega

theorem split_at (b : Buf) (i n : ℕ) : b = b.take i ++ bytesAt b i n ++ b.drop (i + n) := by
  rw [bytesAt, List.append_assoc, ← List.drop_drop, List.take_append_drop,
    List.take_append_drop]

theorem copyAt_length {b v : Buf} {i : ℕ} (h : i + v.length ≤ b.length) :
    (copyAt b i v).length = b.length := by
  simp only [copyAt, List.length_append, List.length_take, List.length_drop]
  omega

theorem cksumSum_split {b : Buf} {i n : ℕ} (h : i + n ≤ b.length) (hi : i % 2 = 0)
    (hn : n % 2 = 0) :
    cksumSum b = cksumSum (b.take i) + cksumSum (bytesAt b i n) + cksumSum (b.drop (i + n)) := by
  have htake : (b.take i).length = i := List.length_take_of_le (by omega)
  have hmid := bytesAt_length h
  have hboth : (b.take i ++ bytesAt b i n).length % 2 = 0 := by
    rw [List.length_append, htake, hmid]
    omega
  conv_lhs => rw [split_at b i n]
  rw [cksumSum_append hboth, cksumSum_append (by rw [htake]; exact hi)]

/-- Words put in the place of others at an even offset. -/
theorem cksumSum_copyAt {b v : Buf} {i : ℕ} (h : i + v.length ≤ b.length) (hi : i % 2 = 0)
    (hv : v.length % 2 = 0) :
    cksumSum (copyAt b i v) + cksumSum (bytesAt b i v.length) = cksumSum b + cksumSum v := by
  have htake : (b.take i).length = i := List.length_take_of_le (by omega)
  have hboth : (b.take i ++ v).length % 2 = 0 := by
    rw [List.length_append, htake]
    omega
  rw [copyAt, cksumSum_append hboth, cksumSum_append (by rw [htake]; exact hi),
    cksumSum_split h hi hv]
  omega

theorem copyAt_drop {b v : Buf} {i k : ℕ} (h : i + v.length ≤ b.length) (hk : k ≤ i) :
    (copyAt b i v).drop k = copyAt (b.drop k) (i - k) v := by
  have htake : (b.take i).length = i := List.length_take_of_le (by omega)
  have hend : k + (i - k + v.length) = i + v.length := by omega
  rw [copyAt, copyAt, List.append_assoc, List.drop_append_of_le_length (by omega), List.drop_take,
    List.drop_drop, hend, List.append_assoc]

theorem copyAt_take {b v : Buf} {i k : ℕ} (h : i + v.length ≤ k) (hk : k ≤ b.length) :
    (copyAt b i v).take k = copyAt (b.take k) i v := by
  have htake : (b.take i).length = i := List.length_take_of_le (by omega)
  have hrest : k - (b.take i ++ v).length = k - (i + v.length) := by
    rw [List.length_append, htake]
  rw [copyAt, copyAt, List.take_append, hrest, List.take_take, List.drop_take,
    Nat.min_eq_left (by omega)]
  congr 1
  apply List.take_of_length_le
  rw [List.length_append, htake]
  exact h

theorem copyAt_take_before {b v : Buf} {i k : ℕ} (hk : k ≤ i) (h : i ≤ b.length) :
    (copyAt b i v).take k = b.take k := by
  have htake : (b.take i).length = i := List.length_take_of_le h
  rw [copyAt, List.append_assoc, List.take_append_of_le_length (by omega), List.take_take,
    Nat.min_eq_left hk]

theorem copyAt_drop_after {b v : Buf} {i k : ℕ} (h : i + v.length ≤ b.length)
    (hk : i + v.length ≤ k) : (copyAt b i v).drop k = b.drop k := by
  have htake : (b.take i).length = i := List.length_take_of_le (by omega)
  have hlen : (b.take i ++ v).length = i + v.length := by rw [List.length_append, htake]
  rw [copyAt, List.drop_append, List.drop_eq_nil_of_le (by omega), List.nil_append, hlen,
    List.drop_drop]
  congr 1
  omega

theorem bytesAt_copyAt_other {b v : Buf} {i j n : ℕ} (h : i + v.length ≤ b.length)
    (hout : j + n ≤ i ∨ i + v.length ≤ j) : bytesAt (copyAt b i v) j n = bytesAt b j n := by
  rcases hout with hbefore | hafter
  · rw [bytesAt, bytesAt, List.take_drop, List.take_drop, copyAt_take_before hbefore (by omega)]
  · rw [bytesAt, bytesAt, copyAt_drop_after h hafter]

theorem bytesAt_copyAt_self {b v : Buf} {i : ℕ} (h : i + v.length ≤ b.length) :
    bytesAt (copyAt b i v) i v.length = v := by
  have htake : (b.take i).length = i := List.length_take_of_le (by omega)
  rw [copyAt, bytesAt, List.append_assoc, List.drop_append, htake, Nat.sub_self, List.drop_zero,
    List.drop_of_length_le (by omega), List.nil_append, List.take_left]

theorem bytesAt_two {b : Buf} {i : ℕ} (h : i + 2 ≤ b.length) :
    bytesAt b i 2 = [byteAt b i, byteAt b (i + 1)] := by
  have h0 : i < b.length := by omega
  have h1 : i + 1 < b.length := by omega
  rw [bytesAt, List.drop_eq_getElem_cons h0, List.drop_eq_getElem_cons h1, List.take_succ_cons,
    List.take_succ_cons, List.take_zero]
  simp only [byteAt, List.getD_eq_getElem?_getD, List.getElem?_eq_getElem, h0, h1,
    Option.getD_some]

theorem cksumSum_two {b : Buf} {i : ℕ} (h : i + 2 ≤ b.length) :
    cksumSum (bytesAt b i 2) = shortAt b i := by
  rw [bytesAt_two h, cksumSum, cksumSum, Nat.add_zero, shortAt]

theorem twoBytes_sum {n : ℕ} (h : n < 65536) : cksumSum (twoBytes n) = n := by
  rw [twoBytes, cksumSum, cksumSum, Nat.add_zero]
  exact hi_lo h

theorem portSum_eq (p : PortNo) : cksumSum p.toList = portSum p := by
  rcases p with ⟨⟨l⟩, hl⟩
  obtain ⟨x, y, rfl⟩ := List.length_eq_two.mp hl
  simp [portSum, cksumSum]

theorem addrSum_eq (a : Addr4) : cksumSum a.toList = addrSum a := by
  rcases a with ⟨⟨l⟩, hl⟩
  obtain ⟨x, l, rfl⟩ := List.exists_cons_of_length_eq_add_one hl
  obtain ⟨y, z, u, rfl⟩ := List.length_eq_three.mp (Nat.succ.inj hl)
  simp [addrSum, cksumSum, Nat.add_assoc]

/-! ### The complement of a sum -/

/-- Sums of at most 65536 words, as `in_cksum` makes them. -/
theorem cksumFold_eq {s : ℕ} (h : s < 65536 * 65536) : cksumFold s = cksum 65535 s := by
  have hq : s / 65536 % 65536 = s / 65536 := Nat.mod_eq_of_lt (by omega)
  simp only [cksumFold, cksum, folded, carry, hq]
  omega

theorem portSum_lt (p : PortNo) : portSum p < 65536 := by
  have h0 := p[0].toNat_lt
  have h1 := p[1].toNat_lt
  unfold portSum
  omega

theorem addrSum_le (a : Addr4) : addrSum a ≤ 131070 := by
  have h0 := a[0].toNat_lt
  have h1 := a[1].toNat_lt
  have h2 := a[2].toNat_lt
  have h3 := a[3].toNat_lt
  unfold addrSum
  omega

/-- The words of an address, and of a port, that a change is about. -/
def oldSum (addr : Option (Addr4 × Addr4)) (port : Option (PortNo × PortNo)) : ℕ :=
  (addr.elim 0 fun a => addrSum a.1) + port.elim 0 fun p => portSum p.1

def newSum (addr : Option (Addr4 × Addr4)) (port : Option (PortNo × PortNo)) : ℕ :=
  (addr.elim 0 fun a => addrSum a.2) + port.elim 0 fun p => portSum p.2

theorem addrChange_modEq (addr : Option (Addr4 × Addr4)) :
    addrChange addr + addr.elim 0 (fun a => addrSum a.1) ≡
      addr.elim 0 (fun a => addrSum a.2) [MOD 65535] := by
  cases addr with
  | none => rfl
  | some a =>
    have hle := addrSum_le a.1
    have hcarry : addrSum a.1 / 65536 + addrSum a.1 % 65536 ≤ 65535 := by omega
    have hfold := carry_modEq 65535 (addrSum a.1)
    simp only [addrChange, Option.elim_some]
    unfold carry at hfold
    unfold Nat.ModEq at hfold ⊢
    split_ifs with h
    · omega
    · rw [not_not.mp h, Nat.zero_add]

theorem portChange_modEq (port : Option (PortNo × PortNo)) :
    portChange port + port.elim 0 (fun p => portSum p.1) ≡
      port.elim 0 (fun p => portSum p.2) [MOD 65535] := by
  cases port with
  | none => rfl
  | some p =>
    have hlt := portSum_lt p.1
    simp only [portChange, Option.elim_some]
    unfold Nat.ModEq
    split_ifs with h
    · omega
    · rw [not_not.mp h, Nat.zero_add]

theorem addrChange_le (addr : Option (Addr4 × Addr4)) : addrChange addr ≤ 196605 := by
  cases addr with
  | none => exact Nat.zero_le _
  | some a =>
    have hle := addrSum_le a.2
    simp only [addrChange]
    split_ifs <;> omega

theorem portChange_le (port : Option (PortNo × PortNo)) : portChange port ≤ 131070 := by
  cases port with
  | none => exact Nat.zero_le _
  | some p =>
    have hlt := portSum_lt p.2
    simp only [portChange]
    split_ifs <;> omega

theorem change_modEq (addr : Option (Addr4 × Addr4)) (port : Option (PortNo × PortNo)) :
    addrChange addr + portChange port + oldSum addr port ≡ newSum addr port [MOD 65535] := by
  have := (addrChange_modEq addr).add (portChange_modEq port)
  have hsum : addrChange addr + portChange port + oldSum addr port =
      addrChange addr + addr.elim 0 (fun a => addrSum a.1) +
        (portChange port + port.elim 0 fun p => portSum p.1) := by
    unfold oldSum
    omega
  rw [hsum]
  exact this

theorem fixCksum_eq (psum : ℕ) (addr : Option (Addr4 × Addr4)) (port : Option (PortNo × PortNo)) :
    fixCksum psum addr port = cksum 65535 (65535 - psum + (addrChange addr + portChange port)) := by
  have ha := addrChange_le addr
  have hp := portChange_le port
  rw [fixCksum, cksumFold_eq (by omega), Nat.add_assoc]

/-- A sum that was right stays right modulo 65535. -/
theorem fixCksum_dvd {t psum : ℕ} {addr : Option (Addr4 × Addr4)}
    {port : Option (PortNo × PortNo)} (hpsum : psum < 65536)
    (h : 65535 ∣ t + oldSum addr port + psum) :
    65535 ∣ t + newSum addr port + fixCksum psum addr port := by
  have ha := addrChange_le addr
  have hp := portChange_le port
  rw [fixCksum_eq]
  exact update_dvd (by omega) h (change_modEq addr port) (by omega)

theorem fixCksum_le (psum : ℕ) (addr : Option (Addr4 × Addr4)) (port : Option (PortNo × PortNo)) :
    fixCksum psum addr port ≤ 65535 := by
  rw [fixCksum_eq]
  exact cksum_le _ _

/-- Nothing is added to a complement that is zero. -/
def Unmoved (psum : ℕ) (addr : Option (Addr4 × Addr4)) (port : Option (PortNo × PortNo)) : Prop :=
  psum = 65535 ∧ (∀ a ∈ addr, a.1 = a.2 ∨ 65535 ∣ addrSum a.1 ∧ addrSum a.1 ≠ 0 ∧ addrSum a.2 = 0) ∧
    ∀ p ∈ port, p.1 = p.2 ∨ portSum p.1 = 65535 ∧ portSum p.2 = 0

theorem addrChange_eq_zero (addr : Option (Addr4 × Addr4)) :
    addrChange addr = 0 ↔ ∀ a ∈ addr, a.1 = a.2 ∨
      65535 ∣ addrSum a.1 ∧ addrSum a.1 ≠ 0 ∧ addrSum a.2 = 0 := by
  cases addr with
  | none => simp [addrChange]
  | some a =>
    have hle := addrSum_le a.1
    simp only [addrChange, Option.mem_def, Option.some.injEq, forall_eq']
    by_cases h : a.1 = a.2
    · simp [h]
    · rw [if_pos h]
      have hcarry : addrSum a.1 / 65536 + addrSum a.1 % 65536 = 65535 ↔
          65535 ∣ addrSum a.1 ∧ addrSum a.1 ≠ 0 := by omega
      simp only [h, false_or]
      rw [← and_assoc, ← hcarry]
      omega

theorem portChange_eq_zero (port : Option (PortNo × PortNo)) :
    portChange port = 0 ↔ ∀ p ∈ port, p.1 = p.2 ∨ portSum p.1 = 65535 ∧ portSum p.2 = 0 := by
  cases port with
  | none => simp [portChange]
  | some p =>
    have hlt := portSum_lt p.1
    simp only [portChange, Option.mem_def, Option.some.injEq, forall_eq']
    by_cases h : p.1 = p.2
    · simp [h]
    · rw [if_pos h]
      simp only [h, false_or]
      omega

/-- The checksum comes to zero where the new words make up for the old ones and it. -/
theorem fixCksum_eq_zero {psum : ℕ} (addr : Option (Addr4 × Addr4))
    (port : Option (PortNo × PortNo)) (hpsum : psum < 65536) :
    fixCksum psum addr port = 0 ↔
      newSum addr port ≡ psum + oldSum addr port [MOD 65535] ∧ ¬Unmoved psum addr port := by
  have ha := addrChange_le addr
  have hp := portChange_le port
  have hchange := change_modEq addr port
  have hstill : Unmoved psum addr port ↔
      65535 - psum + (addrChange addr + portChange port) = 0 := by
    unfold Unmoved
    rw [← addrChange_eq_zero, ← portChange_eq_zero]
    omega
  rw [fixCksum_eq, cksum_eq_zero (by omega) (by omega), hstill]
  unfold Nat.ModEq at hchange ⊢
  omega

/-- The same for sums over a whole packet. -/
theorem fixCksum_sum {s s' psum : ℕ} {addr : Option (Addr4 × Addr4)}
    {port : Option (PortNo × PortNo)} (hpsum : psum < 65536) (h : 65535 ∣ s)
    (hs : s' + (psum + oldSum addr port) = s + (newSum addr port + fixCksum psum addr port)) :
    65535 ∣ s' := by
  have ha := addrChange_le addr
  have hp := portChange_le port
  have hchange := change_modEq addr port
  have hdvd := @cksum_dvd 65535 (65535 - psum + (addrChange addr + portChange port)) (by omega)
  rw [← fixCksum_eq] at hdvd
  unfold Nat.ModEq at hchange
  omega

theorem inCksum_eq_zero {p : Buf} (h : p.length < 131072) :
    inCksum p = 0 ↔ 65535 ∣ cksumSum p ∧ 0 < cksumSum p := by
  have hle := cksumSum_le p
  have hlt : cksumSum p < 65536 * 65536 := by omega
  rw [inCksum, cksumFold_eq hlt, cksum_eq_zero (by omega) hlt]

theorem bytesAt_drop (b : Buf) (i n k : ℕ) : bytesAt (b.drop k) i n = bytesAt b (k + i) n := by
  rw [bytesAt, bytesAt, List.drop_drop]

theorem cksumSum_drop {b : Buf} {i : ℕ} (h : i + 2 ≤ b.length) :
    cksumSum (b.drop i) = shortAt b i + cksumSum (b.drop (i + 2)) := by
  have hmid := bytesAt_length h
  have hsplit : b.drop i = bytesAt b i 2 ++ b.drop (i + 2) := by
    rw [bytesAt, ← List.drop_drop, List.take_append_drop]
  rw [hsplit, cksumSum_append (by rw [hmid]), cksumSum_two h]

theorem cksumSum_eq_zero (p : Buf) : cksumSum p = 0 ↔ ∀ x ∈ p, x = 0 := by
  have hzero : ∀ x : UInt8, x.toNat = 0 ↔ x = 0 := fun x => UInt8.toNat_inj (b := 0)
  induction p using cksumSum.induct with
  | case1 => simp [cksumSum]
  | case2 x =>
    simp only [cksumSum, List.mem_singleton, forall_eq, ← hzero]
    omega
  | case3 x y p ih =>
    rw [cksumSum, List.forall_mem_cons, List.forall_mem_cons, ← hzero, ← hzero]
    constructor
    · intro h
      exact ⟨by omega, by omega, ih.mp (by omega)⟩
    · rintro ⟨hx, hy, hp⟩
      have := ih.mpr hp
      omega

theorem cksumSum_pos {p : Buf} (i : ℕ) (h : byteAt p i ≠ 0) : 0 < cksumSum p := by
  rw [Nat.pos_iff_ne_zero, Ne, cksumSum_eq_zero]
  intro hall
  apply h
  rw [byteAt, List.getD_eq_getElem?_getD]
  cases hx : p[i]? with
  | none => rfl
  | some x => exact hall x (List.mem_of_getElem? hx)

theorem byteAt_drop_add (b : Buf) (i k : ℕ) : byteAt (b.drop k) i = byteAt b (k + i) := by
  simp [byteAt, List.getD_eq_getElem?_getD]

theorem byteAt_copyAt_other {b v : Buf} {i j : ℕ} (h : i + v.length ≤ b.length)
    (hout : j < i ∨ i + v.length ≤ j) : byteAt (copyAt b i v) j = byteAt b j := by
  have hone : ∀ p : Buf, byteAt p j = byteAt (bytesAt p j 1) 0 := by
    intro p
    rw [byteAt_bytesAt Nat.one_pos, Nat.add_zero]
  rw [hone, bytesAt_copyAt_other h hout, ← hone]

theorem shortAt_copyAt_self {b v : Buf} {i : ℕ} (h : i + v.length ≤ b.length) (hv : v.length = 2) :
    shortAt (copyAt b i v) i = cksumSum v := by
  have hlen := copyAt_length h
  have hself := bytesAt_copyAt_self h
  rw [hv] at hself
  rw [← cksumSum_two (by omega), hself]

theorem pseudo_sum {p pl : Buf} (h : pl.length = 2) :
    cksumSum (pseudo p pl) =
      (byteAt p IPPROTO).toNat + cksumSum pl + cksumSum (p.drop IPSRC) := by
  have hfirst : ([0, byteAt p IPPROTO] ++ pl).length % 2 = 0 := by
    simp [h]
  rw [pseudo, cksumSum_append hfirst, cksumSum_append (by simp)]
  simp [cksumSum]

/-! ### Checksums that are summed -/

/-- The checksum that is computed over a zero field makes the sum check. -/
theorem inCksum_filled {b : Buf} {i : ℕ} (h : i + 2 ≤ b.length) (hi : i % 2 = 0)
    (h0 : shortAt b i = 0) (hmost : b.length < 131072) :
    inCksum (copyAt b i (twoBytes (inCksum b))) = 0 := by
  have hlen : (copyAt b i (twoBytes (inCksum b))).length = b.length := copyAt_length h
  have hle := cksumSum_le b
  have hfold : inCksum b = cksum 65535 (cksumSum b) := cksumFold_eq (by omega)
  have hlt : inCksum b < 65536 := cksumFold_lt _
  have hsum : cksumSum (copyAt b i (twoBytes (inCksum b))) = cksumSum b + inCksum b := by
    have hcopy := cksumSum_copyAt (v := twoBytes (inCksum b)) h hi (by rw [twoBytes_length])
    rw [twoBytes_length, cksumSum_two h, h0, twoBytes_sum hlt] at hcopy
    omega
  have hdvd : 65535 ∣ cksumSum b + cksum 65535 (cksumSum b) := cksum_dvd (by omega)
  rw [inCksum_eq_zero (by omega), hsum]
  constructor
  · rw [hfold]
    exact hdvd
  · by_contra hzero
    have hb : cksumSum b = 0 := by omega
    rw [hb] at hfold
    change inCksum b = 65535 at hfold
    omega

theorem pseudo_copyAt {p v pl : Buf} {i : ℕ} (h : i + v.length ≤ p.length) (hi : IPSRC ≤ i)
    (hpl : pl.length = 2) : pseudo (copyAt p i v) pl = copyAt (pseudo p pl) (i - 8) v := by
  have hproto : byteAt (copyAt p i v) IPPROTO = byteAt p IPPROTO := by
    apply byteAt_copyAt_other h
    left
    change 9 < i
    change 12 ≤ i at hi
    omega
  have hfour : ([0, byteAt p IPPROTO] ++ pl).length = 4 := by simp [hpl]
  change 12 ≤ i at hi
  have htake : i - 8 = ([0, byteAt p IPPROTO] ++ pl).length + (i - 12) := by omega
  have hdrop : i - 8 + v.length = ([0, byteAt p IPPROTO] ++ pl).length + (i - 12 + v.length) := by
    omega
  change [0, byteAt (copyAt p i v) IPPROTO] ++ pl ++ (copyAt p i v).drop 12 =
    copyAt ([0, byteAt p IPPROTO] ++ pl ++ p.drop 12) (i - 8) v
  rw [hproto, copyAt_drop h hi, copyAt, copyAt, hdrop, htake, List.take_length_add_append,
    List.drop_length_add_append]
  simp only [List.append_assoc]

theorem pseudo_length_eq {p pl : Buf} (hpl : pl.length = 2) (h : IPSRC ≤ p.length) :
    (pseudo p pl).length = p.length - 8 := by
  change 12 ≤ p.length at h
  change (([0, byteAt p IPPROTO] ++ pl) ++ p.drop 12).length = _
  simp only [List.length_append, List.length_cons, List.length_nil, List.length_drop, hpl]
  omega

theorem pseudoCksum_filled {p pl : Buf} {i : ℕ} (h : i + 2 ≤ p.length) (hi : IPSRC ≤ i)
    (heven : i % 2 = 0) (hpl : pl.length = 2) (h0 : shortAt p i = 0) (hmost : p.length < 131072) :
    pseudoCksum (copyAt p i (twoBytes (pseudoCksum p pl))) pl = 0 := by
  have hat : IPSRC ≤ p.length := by
    omega
  have hlen := pseudo_length_eq hpl hat
  have hword : shortAt (pseudo p pl) (i - 8) = 0 := by
    have hfour : ([0, byteAt p IPPROTO] ++ pl).length = 4 := by simp [hpl]
    have hbyte : ∀ j, IPSRC ≤ j → byteAt (pseudo p pl) (j - 8) = byteAt p j := by
      intro j hj
      change 12 ≤ j at hj
      have hback : IPSRC + (j - 8 - 4) = j := by
        change 12 + _ = j
        omega
      rw [pseudo, byteAt_append_right (by omega), hfour, byteAt_drop_add, hback]
    change 12 ≤ i at hi
    have hnext : i - 8 + 1 = i + 1 - 8 := by omega
    rw [shortAt, hnext, hbyte i hi, hbyte (i + 1) (Nat.le_succ_of_le hi)]
    exact h0
  change 12 ≤ i at hi
  unfold pseudoCksum
  rw [pseudo_copyAt (by rw [twoBytes_length]; exact h) hi hpl]
  exact inCksum_filled (by omega) (by omega) hword (by omega)

end WanStack.Aftr
