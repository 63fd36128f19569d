import WanStack.Aftr.Defrag6

set_option autoImplicit false

/-!
# Encapsulation in IPv6

`encap` writes one IPv6 packet or the fragments of one. `u_int` subtractions
are modulo 2^32, so that the sizes are what the program computes.
-/
namespace WanStack.Aftr
open Reassembly

/-- The addresses of the tunnel and the identification drawn for the packet. -/
structure Outer where
  local6 : Vector UInt8 16
  remote : Vector UInt8 16
  id : Vector UInt8 4

/-- Subtraction of `u_int` values. -/
def usub (a b : ℕ) : ℕ := (a + 2 ^ 32 - b) % 2 ^ 32

/-- `x & ~7`. -/
def floor8 (x : ℕ) : ℕ := x / 8 * 8

/-- `flen0` and `fleno`, the sizes of the first and of the other fragments. -/
def eqfragSizes (len mtu : ℕ) : ℕ × ℕ :=
  let fmtu := floor8 (usub mtu IP6FLEN)
  let nfrag := if len % fmtu ≠ 0 then len / fmtu + 1 else len / fmtu
  let fleno := floor8 (len / nfrag)
  let flen0 := floor8 (usub len (fleno * usub nfrag 1) + 7)
  -- too much remainder: bigger medium size and a new remainder
  let bigger := flen0 > fmtu
  let fleno := if bigger then fleno + 8 else fleno
  let flen0 := if bigger then floor8 (usub len (fleno * usub nfrag 1) + 7) else flen0
  (if flen0 < fleno then fleno else flen0, fleno)

def fragLen (eqfrag : Bool) (mtu len off : ℕ) : ℕ :=
  let flen := usub len off
  if flen > usub mtu IP6FLEN then
    if eqfrag then
      if off = 0 then (eqfragSizes len mtu).1 else (eqfragSizes len mtu).2
    else floor8 (usub mtu IP6FLEN)
  else flen

/-- The fixed header of the packet that is not fragmented. -/
def ip6Header (o : Outer) (len : ℕ) : Buf :=
  [IP6V, 0, 0, 0, hi len, lo len, IP6IP4, 64] ++ o.local6.toList ++ o.remote.toList

/-- The headers of a fragment. -/
def ip6FragHeader (o : Outer) (len off flen : ℕ) : Buf :=
  [IP6V, 0, 0, 0, hi (flen + 8), lo (flen + 8), IP6FRAG, 64] ++ o.local6.toList ++
    o.remote.toList ++
    [IP6IP4, 0, hi off, (lo off &&& IP6FMSK) ||| if flen + off < len then IP6FMF else 0] ++
    o.id.toList

/-- The loop of `encap`; each turn advances, so `len` turns are enough. -/
def encapLoop (o : Outer) (eqfrag : Bool) (mtu : ℕ) (buf4 : Buf) : ℕ → ℕ → List Buf
  | 0, _ => []
  | k + 1, off =>
    if off < buf4.length then
      let flen := fragLen eqfrag mtu buf4.length off
      (ip6FragHeader o buf4.length off flen ++ bytesAt buf4 off flen) ::
        encapLoop o eqfrag mtu buf4 k (off + flen)
    else []

/-- The IPv6 packets written for the packet in `buf4`. -/
def encap (o : Outer) (eqfrag : Bool) (mtu : ℕ) (buf4 : Buf) : List Buf :=
  if buf4.length + IP6HDRLEN ≤ mtu then [ip6Header o buf4.length ++ buf4]
  else encapLoop o eqfrag mtu buf4 buf4.length 0

theorem usub_eq {a b : ℕ} (h : b ≤ a) (ha : a < 2 ^ 32) : usub a b = a - b := by
  simp only [usub]
  omega

theorem floor8_le (x : ℕ) : floor8 x ≤ x := by
  simp only [floor8]
  omega

theorem floor8_mod (x : ℕ) : floor8 x % 8 = 0 := Nat.mul_mod_left ..

/-- A packet too long for the tunnel, and the sizes `encap` may meet. -/
structure TooLong (len mtu : ℕ) : Prop where
  lenMax : len ≤ 65535
  mtuMin : 1280 ≤ mtu
  mtuMax : mtu ≤ 65535
  long : mtu < len + IP6HDRLEN

/-- The number of fragments is the quotient rounded up. -/
theorem nfrag_spec {len m n : ℕ} (hm : 0 < m) (hlt : m < len)
    (hn : n = if len % m ≠ 0 then len / m + 1 else len / m) :
    len ≤ m * n ∧ m * (n - 1) < len ∧ 2 ≤ n := by
  have hdiv := Nat.div_add_mod len m
  have hmod := Nat.mod_lt len hm
  have hq : 1 ≤ len / m := (Nat.one_le_div_iff hm).mpr hlt.le
  split at hn
  · subst hn
    rw [Nat.mul_add, Nat.add_sub_cancel]
    omega
  · have h0 : len % m = 0 := by omega
    have hq2 : len / m ≠ 1 := by
      intro h1
      rw [h1, h0] at hdiv
      omega
    subst hn
    refine ⟨by omega, ?_, by omega⟩
    have := (Nat.mul_lt_mul_left hm).mpr (show len / m - 1 < len / m by omega)
    omega

/-- The sizes of equal fragments: multiples of 8, positive, at most what fits.
    No subtraction on the way wraps. -/
theorem eqfragSizes_spec {len mtu : ℕ} (h : TooLong len mtu) :
    (eqfragSizes len mtu).1 % 8 = 0 ∧ (eqfragSizes len mtu).2 % 8 = 0 ∧
      0 < (eqfragSizes len mtu).1 ∧ 0 < (eqfragSizes len mtu).2 ∧
      (eqfragSizes len mtu).1 ≤ mtu - IP6FLEN ∧ (eqfragSizes len mtu).2 ≤ mtu - IP6FLEN := by
  obtain ⟨hlen, hmin, hmax, hlong⟩ := h
  simp only [IP6HDRLEN] at hlong
  obtain ⟨m, hm⟩ : ∃ m, m = floor8 (usub mtu IP6FLEN) := ⟨_, rfl⟩
  have hmv : m = (mtu - 48) / 8 * 8 := by
    rw [hm, usub_eq (by simp only [IP6FLEN]; omega) (by omega)]
    rfl
  obtain ⟨n, hn⟩ : ∃ n, n = if len % m ≠ 0 then len / m + 1 else len / m := ⟨_, rfl⟩
  obtain ⟨hle, hlt, hn2⟩ := nfrag_spec (by omega) (by omega) hn
  obtain ⟨q, hq⟩ : ∃ q, q = floor8 (len / n) := ⟨_, rfl⟩
  have hn54 : n - 1 ≤ 53 := by
    by_contra hbig
    have := Nat.mul_le_mul (show 1232 ≤ m by omega) (show 54 ≤ n - 1 by omega)
    omega
  -- `q` is the lower medium size, at most an n-th of the length
  have hqn : q * n ≤ len := by
    have h1 := Nat.mul_le_mul_right n (floor8_le (len / n))
    have h2 := Nat.div_mul_le_self len n
    rw [hq]
    omega
  have hqn8 : len < (q + 8) * n := by
    have h1 : len / n < q + 8 := by
      simp only [hq, floor8]
      omega
    exact (Nat.div_lt_iff_lt_mul (by omega)).mp h1
  have hqm : q ≤ m := by
    refine le_of_mul_le_mul_right ?_ (show 0 < n by omega)
    omega
  have hqpos : 8 ≤ q := by
    by_contra hsmall
    have hq0 : q = 0 := by
      have := floor8_mod (len / n)
      rw [← hq] at this
      omega
    rw [hq0] at hqn8
    omega
  -- the products that occur, named for the linear steps below
  obtain ⟨P, hP⟩ : ∃ P, P = q * (n - 1) := ⟨_, rfl⟩
  obtain ⟨M, hM⟩ : ∃ M, M = m * (n - 1) := ⟨_, rfl⟩
  have hqn' : q * n = P + q := by
    rw [hP, ← Nat.mul_succ, Nat.succ_eq_add_one, Nat.sub_add_cancel (by omega)]
  have hmn' : m * n = M + m := by
    rw [hM, ← Nat.mul_succ, Nat.succ_eq_add_one, Nat.sub_add_cancel (by omega)]
  have hq8 : (q + 8) * (n - 1) = P + 8 * (n - 1) := by rw [Nat.add_mul, hP]
  have hq8n : (q + 8) * n = P + q + 8 * n := by rw [Nat.add_mul, hqn']
  have hn1 : usub n 1 = n - 1 := usub_eq (by omega) (by omega)
  have hr : usub len (q * usub n 1) = len - P := by
    rw [hn1, ← hP, usub_eq (by omega) (by omega)]
  have hlt8 : floor8 (len - P + 7) > m → q < m := by
    intro hgt
    have hrm : len - P > m := by
      simp only [floor8] at hgt
      omega
    have hlt : q * (n - 1) < m * (n - 1) := by omega
    exact lt_of_mul_lt_mul_right hlt (Nat.zero_le _)
  have hr8 : floor8 (len - P + 7) > m →
      usub len ((q + 8) * usub n 1) = len - (P + 8 * (n - 1)) := by
    intro hgt
    have hrm : len - P > m := by
      simp only [floor8] at hgt
      omega
    rw [hn1, hq8, usub_eq (by omega) (by omega)]
  have hqmod : q % 8 = 0 := hq ▸ floor8_mod _
  obtain ⟨B, hB⟩ : ∃ B, B = if floor8 (len - P + 7) > m then q + 8 else q := ⟨_, rfl⟩
  obtain ⟨A, hA⟩ : ∃ A, A = if floor8 (len - P + 7) > m then
    floor8 (usub len (B * usub n 1) + 7) else floor8 (len - P + 7) := ⟨_, rfl⟩
  have hsizes : eqfragSizes len mtu = (if A < B then B else A, B) := by
    simp only [eqfragSizes, ← hm, ← hn, ← hq, hr, ← hB, ← hA]
  have hAB : A % 8 = 0 ∧ B % 8 = 0 ∧ 0 < B ∧ A ≤ m ∧ B ≤ m := by
    by_cases hgt : floor8 (len - P + 7) > m
    · have hqlt := hlt8 hgt
      have hcore := hr8 hgt
      rw [if_pos hgt] at hA hB
      rw [hB, hcore] at hA
      simp only [floor8] at hA hgt
      omega
    · rw [if_neg hgt] at hA hB
      simp only [floor8] at hA hgt
      omega
  obtain ⟨hA8, hB8, hB0, hAm, hBm⟩ := hAB
  rw [hsizes]
  simp only [IP6FLEN]
  split <;> omega

/-- One turn of the loop: it advances, stays inside the packet and the tunnel
    MTU, and cuts at a multiple of 8 unless it reaches the end. -/
theorem fragLen_spec {len mtu off : ℕ} (h : TooLong len mtu) (eqfrag : Bool) (hoff : off < len) :
    0 < fragLen eqfrag mtu len off ∧ off + fragLen eqfrag mtu len off ≤ len ∧
      fragLen eqfrag mtu len off + IP6FLEN ≤ mtu ∧
      (off + fragLen eqfrag mtu len off < len → fragLen eqfrag mtu len off % 8 = 0) := by
  have hlen := h.lenMax
  have hmin := h.mtuMin
  have hmax := h.mtuMax
  have hflen : usub len off = len - off := usub_eq hoff.le (by omega)
  have hfmtu : usub mtu IP6FLEN = mtu - 48 := usub_eq (by simp only [IP6FLEN]; omega) (by omega)
  simp only [fragLen, hflen, hfmtu]
  simp only [IP6FLEN]
  by_cases hbig : len - off > mtu - 48
  · rw [if_pos hbig]
    cases eqfrag with
    | true =>
      obtain ⟨h8, h8o, hpos, hposo, hle, hleo⟩ := eqfragSizes_spec h
      simp only [IP6FLEN] at hle hleo
      simp only [if_true]
      split <;> omega
    | false =>
      simp only [Bool.false_eq_true, if_false, floor8]
      omega
  · rw [if_neg hbig]
    omega

@[simp] theorem ip6FragHeader_length (o : Outer) (len off flen : ℕ) :
    (ip6FragHeader o len off flen).length = IP6FLEN := by
  simp [ip6FragHeader, IP6FLEN]

@[simp] theorem ip6Header_length (o : Outer) (len : ℕ) : (ip6Header o len).length = IP6HDRLEN := by
  simp [ip6Header, IP6HDRLEN]

/-- The bytes of a fragment after its addresses. -/
theorem byteAt_fragHeader (o : Outer) (len off flen : ℕ) (b : Buf) (k : ℕ) (hk : k < 4) :
    byteAt (ip6FragHeader o len off flen ++ b) (40 + k) =
      byteAt [IP6IP4, 0, hi off, (lo off &&& IP6FMSK) ||| if flen + off < len then IP6FMF else 0]
        k := by
  rw [byteAt_append_left (by simp [IP6FLEN]; omega), ip6FragHeader,
    byteAt_append_left (by simp; omega), byteAt_append_right (by simp)]
  simp

theorem piece6_fragment (o : Outer) {len off flen : ℕ} (hoff : off < 65536) (h8 : off % 8 = 0)
    (b : Buf) : piece6 (ip6FragHeader o len off flen ++ b) =
      ⟨off, decide (off + flen < len), b⟩ := by
  have hh : byteAt (ip6FragHeader o len off flen ++ b) IP6FOFFH = hi off :=
    byteAt_fragHeader o len off flen b 2 (by decide)
  have hl : byteAt (ip6FragHeader o len off flen ++ b) IP6FOFFL =
      (lo off &&& IP6FMSK) ||| if flen + off < len then IP6FMF else 0 :=
    byteAt_fragHeader o len off flen b 3 (by decide)
  have hmsk : byteAt (ip6FragHeader o len off flen ++ b) IP6FOFFL &&& IP6FMSK =
      lo off &&& IP6FMSK := by
    rw [hl, or_and_distrib, UInt8.and_assoc]
    split
    · rw [show IP6FMF &&& IP6FMSK = 0 by decide, UInt8.or_zero]
      rfl
    · rw [UInt8.zero_and, UInt8.or_zero]
      rfl
  have hmf : byteAt (ip6FragHeader o len off flen ++ b) IP6FOFFL &&& IP6FMF =
      if flen + off < len then IP6FMF else 0 := by
    rw [hl, or_and_distrib, UInt8.and_assoc, show IP6FMSK &&& IP6FMF = 0 by decide,
      UInt8.and_zero, UInt8.zero_or]
    split
    · rfl
    · rfl
  simp only [piece6, hmsk, hmf, hh, hi_toNat hoff, IP6FMSK_toNat, lo_toNat]
  congr 1
  · omega
  · rw [Nat.add_comm off flen]
    by_cases h : flen + off < len
    · simp only [h, if_true, decide_true]
      decide
    · simp [h]
  · rw [List.drop_left' (ip6FragHeader_length ..)]

/-- The rest of the loop: the fragments are the cut of what is left of the packet. -/
theorem encapLoop_spec (o : Outer) (eqfrag : Bool) {mtu : ℕ} {buf4 : Buf}
    (h : TooLong buf4.length mtu) (k off : ℕ) (hk : buf4.length ≤ off + k)
    (h8 : off < buf4.length → off % 8 = 0) :
    (∀ p ∈ encapLoop o eqfrag mtu buf4 k off, IP6FLEN < p.length ∧ p.length ≤ mtu) ∧
    (encapLoop o eqfrag mtu buf4 k off).map piece6 =
      cut off ((encapLoop o eqfrag mtu buf4 k off).map (List.drop IP6FLEN)) ∧
    ((encapLoop o eqfrag mtu buf4 k off).map (List.drop IP6FLEN)).flatten = buf4.drop off ∧
    (encapLoop o eqfrag mtu buf4 k off = [] ↔ buf4.length ≤ off) := by
  induction k generalizing off with
  | zero =>
    have hle : buf4.length ≤ off := hk
    simp [encapLoop, cut, hle]
  | succ k ih =>
    unfold encapLoop
    by_cases hoff : off < buf4.length
    · obtain ⟨hpos, hend, hfit, hmod⟩ := fragLen_spec h eqfrag hoff
      obtain ⟨flen, hflen⟩ : ∃ flen, flen = fragLen eqfrag mtu buf4.length off := ⟨_, rfl⟩
      rw [← hflen] at hpos hend hfit hmod
      simp only [if_pos hoff, ← hflen]
      obtain ⟨ihlen, ihcut, ihdata, ihnil⟩ := ih (off + flen) (by omega)
        fun hlt => by
          have := h8 hoff
          have := hmod hlt
          omega
      have hdata : (bytesAt buf4 off flen).length = flen := by
        simp only [bytesAt, List.length_take, List.length_drop]
        omega
      have hdrop : (ip6FragHeader o buf4.length off flen ++ bytesAt buf4 off flen).drop IP6FLEN =
          bytesAt buf4 off flen := List.drop_left' (ip6FragHeader_length ..)
      refine ⟨?_, ?_, ?_, ?_⟩
      · intro p hp
        rcases List.mem_cons.mp hp with rfl | hp
        · rw [List.length_append, ip6FragHeader_length, hdata]
          omega
        · exact ihlen p hp
      · have hlt : off < 65536 := by
          have := h.lenMax
          omega
        have hmore : (!(encapLoop o eqfrag mtu buf4 k (off + flen)).isEmpty) =
            decide (off + flen < buf4.length) := by
          rw [Bool.eq_iff_iff]
          simp [ihnil]
        rw [List.map_cons, List.map_cons, cut, hdrop, hdata, ihcut,
          piece6_fragment o hlt (h8 hoff), List.isEmpty_map, hmore]
      · rw [List.map_cons, List.flatten_cons, hdrop, ihdata, bytesAt, ← List.drop_drop,
          List.take_append_drop]
      · simp only [reduceCtorEq, false_iff]
        omega
    · rw [if_neg hoff]
      simp only [not_lt] at hoff
      simp [cut, hoff]

theorem encapLoop_mem {o : Outer} {eqfrag : Bool} {mtu : ℕ} {buf4 : Buf} {k off : ℕ} {p : Buf}
    (hp : p ∈ encapLoop o eqfrag mtu buf4 k off) :
    ∃ off flen, p = ip6FragHeader o buf4.length off flen ++ bytesAt buf4 off flen := by
  induction k generalizing off with
  | zero => simp [encapLoop] at hp
  | succ k ih =>
    unfold encapLoop at hp
    split at hp
    · rcases List.mem_cons.mp hp with rfl | hp
      · exact ⟨_, _, rfl⟩
      · exact ih hp
    · simp at hp

/-- All fragments of a packet carry the same protocol and identification. -/
theorem fragKey6_fragment (o : Outer) (t : Option ℕ) (len off flen : ℕ) (b : Buf) :
    fragKey6 t (ip6FragHeader o len off flen ++ b) = (t, IP6IP4, o.id.toList) := by
  have hproto : byteAt (ip6FragHeader o len off flen ++ b) IP6FPROTO = IP6IP4 :=
    byteAt_fragHeader o len off flen b 0 (by decide)
  have hid : bytesAt (ip6FragHeader o len off flen ++ b) IP6FID 4 = o.id.toList := by
    have h44 : ip6FragHeader o len off flen = ([IP6V, 0, 0, 0, hi (flen + 8), lo (flen + 8),
        IP6FRAG, 64] ++ o.local6.toList ++ o.remote.toList ++ [IP6IP4, 0, hi off,
        (lo off &&& IP6FMSK) ||| if flen + off < len then IP6FMF else 0]) ++ o.id.toList := rfl
    rw [bytesAt, h44, List.append_assoc, List.drop_left' (by simp [IP6FID]),
      List.take_left' (by simp)]
  rw [fragKey6, hproto, hid]

/-- The header `defrag6` rebuilds is the one of the packet sent whole. -/
theorem rebuild6_fragment (o : Outer) (len flen : ℕ) (b : Buf) (l : List (Piece UInt8)) :
    rebuild6 ((ip6FragHeader o len 0 flen ++ b).take IP6FLEN) l len =
      ip6Header o len ++ l.flatMap Piece.data := by
  have hbyte : byteAt ((ip6FragHeader o len 0 flen ++ b).take IP6FLEN) IP6FPROTO = IP6IP4 := by
    rw [byteAt_take (by decide)]
    exact byteAt_fragHeader o len 0 flen b 0 (by decide)
  have h40 : ((ip6FragHeader o len 0 flen ++ b).take IP6FLEN).take IP6HDRLEN =
      [IP6V, 0, 0, 0, hi (flen + 8), lo (flen + 8), IP6FRAG, 64] ++ o.local6.toList ++
        o.remote.toList := by
    rw [List.take_take, ip6FragHeader, List.append_assoc, List.append_assoc]
    exact List.take_left' (by simp [IP6HDRLEN, IP6FLEN])
  simp only [rebuild6, hbyte, h40]
  rfl

/-- The fragments `encap` writes, as one datagram for `defrag6`. -/
theorem encap_datagram (o : Outer) (eqfrag : Bool) {mtu : ℕ} {buf4 : Buf}
    (h : TooLong buf4.length mtu) (t : ℕ) :
    ∃ d : Datagram6, d.frags = encap o eqfrag mtu buf4 ∧ d.tunnel = t ∧
      d.key = (some t, IP6IP4, o.id.toList) ∧ d.payload = buf4 ∧
      ∃ flen b, d.first = ip6FragHeader o buf4.length 0 flen ++ b := by
  have hlong : ¬ buf4.length + IP6HDRLEN ≤ mtu := by
    have := h.long
    omega
  obtain ⟨hlen, hcut, hdata, hnil⟩ := encapLoop_spec o eqfrag h buf4.length 0 (by omega) (by simp)
  have hpos : 0 < buf4.length := by
    have := h.long
    have := h.mtuMin
    simp only [IP6HDRLEN] at *
    omega
  obtain ⟨first, rest, heq⟩ : ∃ first rest,
      encapLoop o eqfrag mtu buf4 buf4.length 0 = first :: rest :=
    List.exists_cons_of_ne_nil fun hn => by
      have := hnil.mp hn
      omega
  have hkey : ∀ b ∈ first :: rest, fragKey6 (some t) b = (some t, IP6IP4, o.id.toList) := by
    intro b hb
    obtain ⟨off, flen, rfl⟩ := encapLoop_mem (heq ▸ hb)
    exact fragKey6_fragment o (some t) _ _ _ _
  have hfirst : ∃ flen b, first = ip6FragHeader o buf4.length 0 flen ++ b := by
    obtain ⟨k, hk⟩ : ∃ k, buf4.length = k + 1 := ⟨buf4.length - 1, by omega⟩
    rw [hk] at heq
    unfold encapLoop at heq
    rw [if_pos hpos] at heq
    exact ⟨_, _, (List.cons.inj heq).1.symm⟩
  rw [heq] at hlen hcut hdata
  refine ⟨{
    first := first
    rest := rest
    header := fun b hb => (hlen b hb).1
    pieces := hcut
    tunnel := t
    same := ?_
    total := ?_ }, ?_, rfl, ?_, hdata, hfirst⟩
  · intro b hb
    rw [hkey b hb, hkey first (List.mem_cons_self ..)]
  · rw [hdata]
    exact h.lenMax
  · rw [encap, if_neg hlong, heq]
    rfl
  · exact hkey first (List.mem_cons_self ..)

/-- `encap` and `defrag6` are inverse: what is written fits the tunnel and tiles
    the packet, and in any order of arrival the packet comes back. -/
theorem encap_defrag6 (o : Outer) (eqfrag : Bool) (mtu : ℕ) (buf4 : Buf)
    (hlen : 28 ≤ buf4.length ∧ buf4.length ≤ IPMAXLEN) (hmtu : 1280 ≤ mtu ∧ mtu ≤ IPMAXLEN) :
    (∀ p ∈ encap o eqfrag mtu buf4, p.length ≤ mtu) ∧
    (buf4.length + IP6HDRLEN ≤ mtu →
      encap o eqfrag mtu buf4 = [ip6Header o buf4.length ++ buf4]) ∧
    (mtu < buf4.length + IP6HDRLEN →
      (∀ p ∈ encap o eqfrag mtu buf4, (piece6 p).off % 8 = 0) ∧
      (encap o eqfrag mtu buf4).map piece6 =
        cut 0 ((encap o eqfrag mtu buf4).map (List.drop IP6FLEN)) ∧
      ((encap o eqfrag mtu buf4).map (List.drop IP6FLEN)).flatten = buf4 ∧
      ∀ (cfg : FragConf) (st : Frags) (t : ℕ) (calls : List (Env × Buf)),
        FragReachable cfg st → (∀ f ∈ st.frags6, f.key6 ≠ (some t, IP6IP4, o.id.toList)) →
        st.frags6cnt + 1 < cfg.maxcnt6 ∧ st.frg6cnt t + 1 < cfg.tnmaxcnt6 →
        (∀ c ∈ calls, ∀ k, c.1.mem k = true) →
        (calls.map Prod.snd).Perm (encap o eqfrag mtu buf4) →
        (feed6 cfg t st calls).2 = List.replicate (calls.length - 1) none ++
          [some (ip6Header o buf4.length ++ buf4)] ∧
        ∀ f ∈ (feed6 cfg t st calls).1.frags6, f.key6 ≠ (some t, IP6IP4, o.id.toList)) := by
  simp only [IPMAXLEN] at hlen hmtu
  refine ⟨?_, fun hfit => if_pos hfit, fun hlong => ?_⟩
  · intro p hp
    by_cases hfit : buf4.length + IP6HDRLEN ≤ mtu
    · rw [encap, if_pos hfit] at hp
      obtain rfl := List.mem_singleton.mp hp
      rw [List.length_append, ip6Header_length]
      omega
    · rw [encap, if_neg hfit] at hp
      exact ((encapLoop_spec o eqfrag ⟨hlen.2, hmtu.1, hmtu.2, by omega⟩ buf4.length 0
        (by omega) (by simp)).1 p hp).2
  · have h : TooLong buf4.length mtu := ⟨hlen.2, hmtu.1, hmtu.2, hlong⟩
    obtain ⟨-, hcut, hdata, -⟩ := encapLoop_spec o eqfrag h buf4.length 0 (by omega) (by simp)
    have hloop : encap o eqfrag mtu buf4 = encapLoop o eqfrag mtu buf4 buf4.length 0 :=
      if_neg (by omega)
    refine ⟨fun p _ => piece6_off p, hloop ▸ hcut, hloop ▸ hdata, ?_⟩
    intro cfg st t calls hreach hfresh hroom hmem hperm
    obtain ⟨d, hfrags, rfl, hkey, hpay, flen, b, hfirst⟩ := encap_datagram o eqfrag h t
    rw [← hkey] at hfresh
    have hstart : Holds6 d st st [] :=
      ⟨hreach.ok6, Tracks.empty hfresh, by simp, by simp⟩
    have hne : calls ≠ [] := by
      rintro rfl
      have := hperm.length_eq
      rw [← hfrags] at this
      simp [Fragments.frags] at this
    obtain ⟨hrs, hno⟩ := hstart.feed cfg calls (by rw [hfrags]; exact hperm) hne hroom hmem
    have hout : rebuild6 (d.first.take IP6FLEN) (cut 0 d.blocks) d.payload.length =
        ip6Header o buf4.length ++ buf4 := by
      rw [hpay, hfirst, rebuild6_fragment, cut_data]
      exact congrArg _ hpay
    rw [hout] at hrs
    exact ⟨hrs, hkey ▸ hno⟩

/-- Addresses and an identification to encapsulate with. -/
def outerExample : Outer := ⟨.replicate 16 0xfd, .replicate 16 0xfe, .replicate 4 7⟩

theorem encap_defrag6_reversed :
    (feed6 {} 3 {} ((encap outerExample true 1280 (List.replicate 1300 1)).reverse.map
      (Prod.mk ⟨0, fun _ => true⟩))).2.getLast? =
        some (some (ip6Header outerExample 1300 ++ List.replicate 1300 1)) := by
  obtain ⟨buf4, hbuf⟩ : ∃ buf4 : Buf, buf4 = List.replicate 1300 1 := ⟨_, rfl⟩
  have hlen : buf4.length = 1300 := hbuf ▸ List.length_replicate
  rw [← hbuf]
  have h := (encap_defrag6 outerExample true 1280 buf4 ⟨by omega, by simp only [IPMAXLEN]; omega⟩
    ⟨by decide, by decide⟩).2.2 (by simp only [IP6HDRLEN]; omega)
  have hrev := (h.2.2.2 {} {} 3 ((encap outerExample true 1280 buf4).reverse.map
    (Prod.mk ⟨0, fun _ => true⟩)) ⟨0, [], rfl⟩ (by simp) ⟨by decide, by decide⟩ ?_ ?_).1
  · rw [hrev, hlen]
    simp
  · intro c hc k
    obtain ⟨b, -, rfl⟩ := List.mem_map.mp hc
    rfl
  · simp [Function.comp_def, List.reverse_perm]

end WanStack.Aftr
