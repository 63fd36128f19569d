import Mathlib.Data.UInt
import Mathlib.Data.List.Basic
import Mathlib.Tactic.Ring

set_option autoImplicit false

/-!
# Packet buffers

Offsets and constants of the IPv4 and IPv6 headers, the Internet checksum and
the hash functions. A buffer is the list of its `len` valid bytes.
-/
namespace WanStack.Aftr

abbrev Buf := List UInt8

def IPLENH : ℕ := 2
def IPLENL : ℕ := 3
def IPID : ℕ := 4
def IPOFFH : ℕ := 6
def IPOFFL : ℕ := 7
def IPPROTO : ℕ := 9
def IPCKSUMH : ℕ := 10
def IPCKSUML : ℕ := 11
def IPSRC : ℕ := 12
def IPDST : ℕ := 16
def IPHDRLEN : ℕ := 20
def IPMAXLEN : ℕ := 65535
def IPDF : UInt8 := 0x40
def IPMF : UInt8 := 0x20
def IPOFFMSK : UInt8 := 0x1f

def IP6V : UInt8 := 0x60
def IP6LENH : ℕ := 4
def IP6LENL : ℕ := 5
def IP6PROTO : ℕ := 6
def IP6TTL : ℕ := 7
def IP6SRC : ℕ := 8
def IP6DST : ℕ := 24
def IP6HDRLEN : ℕ := 40
def IP6FPROTO : ℕ := 40
def IP6FOFFH : ℕ := 42
def IP6FOFFL : ℕ := 43
def IP6FID : ℕ := 44
def IP6FLEN : ℕ := 48
def IP6FMF : UInt8 := 0x01
def IP6FMSK : UInt8 := 0xf8
def IP6IP4 : UInt8 := 4
def IP6FRAG : UInt8 := 44

/-- The byte at an index; past the end the buffer reads as zero. -/
def byteAt (b : Buf) (i : ℕ) : UInt8 := b.getD i 0

/-- The bytes `memcmp` and `memcpy` see from an index on. -/
def bytesAt (b : Buf) (i n : ℕ) : Buf := (b.drop i).take n

/-- A 16 bit field, `(p[i] << 8) | p[i + 1]`. -/
def shortAt (b : Buf) (i : ℕ) : ℕ := (byteAt b i).toNat * 256 + (byteAt b (i + 1)).toNat

/-- High and low byte of a 16 bit number. -/
def hi (n : ℕ) : UInt8 := UInt8.ofNat (n / 256)
def lo (n : ℕ) : UInt8 := UInt8.ofNat n

def cksumSum : Buf → ℕ
  | [] => 0
  | [b] => b.toNat * 256
  | a :: b :: p => a.toNat * 256 + b.toNat + cksumSum p

/-- The two folds after the loop of `in_cksum`. -/
def cksumFold (sum : ℕ) : ℕ :=
  let s := sum / 65536 % 65536 + sum % 65536
  65535 - (s + s / 65536) % 65536

def inCksum (p : Buf) : ℕ := cksumFold (cksumSum p)

/-- `memcpy` of four bytes into a `uint32_t`, least significant byte first. -/
def word32 (b : Buf) (i : ℕ) : UInt32 :=
  (byteAt b i).toUInt32 ||| (byteAt b (i + 1)).toUInt32 <<< 8 |||
    (byteAt b (i + 2)).toUInt32 <<< 16 ||| (byteAt b (i + 3)).toUInt32 <<< 24

def jhashGoldenRatio : UInt32 := 0x9e3779b9

/-- One line of `__jhash_mix`: `x -= y; x -= z; x ^= shifted z`. -/
def jhashLine (x y z s : UInt32) : UInt32 := (x - y - z) ^^^ s

def jhashMix (a b c : UInt32) : UInt32 × UInt32 × UInt32 :=
  let a := jhashLine a b c (c >>> 13)
  let b := jhashLine b c a (a <<< 8)
  let c := jhashLine c a b (b >>> 13)
  let a := jhashLine a b c (c >>> 12)
  let b := jhashLine b c a (a <<< 16)
  let c := jhashLine c a b (b >>> 5)
  let a := jhashLine a b c (c >>> 3)
  let b := jhashLine b c a (a <<< 10)
  let c := jhashLine c a b (b >>> 15)
  (a, b, c)

/-- The 16 bit value every hash function returns. -/
def jhashShort (c : UInt32) : ℕ := (((c >>> 16) + (c &&& 0xffff)) &&& 0xffff).toNat

theorem byteAt_append_left {b c : Buf} {i : ℕ} (h : i < b.length) :
    byteAt (b ++ c) i = byteAt b i := by
  simp [byteAt, List.getD_eq_getElem?_getD, List.getElem?_append_left h]

theorem byteAt_append_right {b c : Buf} {i : ℕ} (h : b.length ≤ i) :
    byteAt (b ++ c) i = byteAt c (i - b.length) := by
  simp [byteAt, List.getD_eq_getElem?_getD, List.getElem?_append_right h]

theorem byteAt_set (b : Buf) (i j : ℕ) (v : UInt8) :
    byteAt (b.set i v) j = if i = j ∧ j < b.length then v else byteAt b j := by
  simp only [byteAt, List.getD_eq_getElem?_getD, List.getElem?_set]
  grind

theorem byteAt_bytesAt {b : Buf} {i n k : ℕ} (h : k < n) :
    byteAt (bytesAt b i n) k = byteAt b (i + k) := by
  simp [byteAt, bytesAt, List.getD_eq_getElem?_getD, h]

theorem bytesAt_take {b : Buf} {i n m : ℕ} (h : i + n ≤ m) :
    bytesAt (b.take m) i n = bytesAt b i n := by
  simp only [bytesAt, List.drop_take, List.take_take]
  congr 1
  omega

theorem byteAt_take {b : Buf} {i m : ℕ} (h : i < m) : byteAt (b.take m) i = byteAt b i := by
  simp [byteAt, List.getD_eq_getElem?_getD, h]

theorem hi_toNat {n : ℕ} (h : n < 65536) : (hi n).toNat = n / 256 := by
  simp [hi, UInt8.toNat_ofNat']
  omega

@[simp] theorem lo_toNat (n : ℕ) : (lo n).toNat = n % 256 := by
  simp [lo, UInt8.toNat_ofNat']

theorem or_and_distrib (x y z : UInt8) : (x ||| y) &&& z = (x &&& z) ||| (y &&& z) :=
  UInt8.toBitVec_inj.mp BitVec.and_or_distrib_right

theorem IP6FMSK_toNat (x : UInt8) : (x &&& IP6FMSK).toNat = x.toNat / 8 * 8 := by
  have h : ∀ n : Fin 256, n.val &&& 248 = n.val / 8 * 8 := by decide +kernel
  exact h ⟨x.toNat, x.toNat_lt⟩

theorem cksumFold_words {q r : ℕ} (hq : q < 65536) (hr : r < 65536) :
    cksumFold (65536 * q + r) = 65535 - (q + r + (q + r) / 65536) % 65536 := by
  have h1 : (65536 * q + r) / 65536 % 65536 = q := by omega
  have h2 : (65536 * q + r) % 65536 = r := by omega
  simp only [cksumFold, h1, h2]

/-- Filling a zero checksum field with the computed value makes the sum check. -/
theorem cksumFold_add_self {s : ℕ} (h : s < 655360) :
    cksumFold (s + cksumFold s) = 0 := by
  obtain ⟨q, r, rfl, hr⟩ : ∃ q r, s = 65536 * q + r ∧ r < 65536 :=
    ⟨s / 65536, s % 65536, by omega, by omega⟩
  have hc := cksumFold_words (q := q) (by omega) hr
  rcases Nat.lt_or_ge (q + r) 65536 with hs | hs
  · have he : 65536 * q + r + cksumFold (65536 * q + r) = 65536 * q + (65535 - q) := by
      rw [hc]
      omega
    rw [he, cksumFold_words (by omega) (by omega)]
    omega
  · have he : 65536 * q + r + cksumFold (65536 * q + r) = 65536 * (q + 1) + (65534 - q) := by
      rw [hc]
      omega
    rw [he, cksumFold_words (by omega) (by omega)]
    omega

theorem cksumSum_set (k : ℕ) (p : Buf) (h : 2 * k + 1 < p.length) (u v : UInt8) :
    cksumSum ((p.set (2 * k) u).set (2 * k + 1) v) + shortAt p (2 * k) =
      cksumSum p + (u.toNat * 256 + v.toNat) := by
  induction k generalizing p with
  | zero =>
    match p, h with
    | a :: b :: p, _ =>
      simp only [Nat.mul_zero, List.set_cons_zero, Nat.zero_add, List.set_cons_succ, cksumSum,
        shortAt, byteAt, List.getD_cons_zero, List.getD_cons_succ]
      omega
  | succ k ih =>
    match p, h with
    | a :: b :: p, h =>
      have := ih p (by simp only [List.length_cons] at h; omega)
      rw [show 2 * (k + 1) = 2 * k + 1 + 1 by omega]
      simp only [List.set_cons_succ, cksumSum, shortAt, byteAt, List.getD_cons_succ] at this ⊢
      omega

theorem cksumSum_le (p : Buf) : cksumSum p ≤ 65535 * ((p.length + 1) / 2) := by
  induction p using cksumSum.induct with
  | case1 => simp [cksumSum]
  | case2 b =>
    have := b.toNat_lt
    simp only [cksumSum, List.length_singleton]
    omega
  | case3 a b p ih =>
    have := a.toNat_lt
    have := b.toNat_lt
    simp only [cksumSum, List.length_cons]
    omega

theorem hi_lo {n : ℕ} (h : n < 65536) : (hi n).toNat * 256 + (lo n).toNat = n := by
  rw [hi_toNat h, lo_toNat]
  omega

theorem cksumFold_lt (s : ℕ) : cksumFold s < 65536 := by
  simp only [cksumFold]
  omega

/-- A header whose checksum field was filled in checks. -/
theorem inCksum_fill {h : Buf} (hlen : h.length = IPHDRLEN) (h0 : shortAt h IPCKSUMH = 0) :
    inCksum ((h.set IPCKSUMH (hi (inCksum h))).set IPCKSUML (lo (inCksum h))) = 0 := by
  have hset := cksumSum_set 5 h (by rw [hlen]; decide) (hi (inCksum h)) (lo (inCksum h))
  have hle := cksumSum_le h
  have hlt : inCksum h < 65536 := cksumFold_lt _
  rw [hi_lo hlt, show shortAt h (2 * 5) = 0 from h0, Nat.add_zero] at hset
  simp only [hlen, IPHDRLEN] at hle
  change cksumFold (cksumSum ((h.set (2 * 5) _).set (2 * 5 + 1) _)) = 0
  rw [hset]
  exact cksumFold_add_self (by omega)

end WanStack.Aftr
