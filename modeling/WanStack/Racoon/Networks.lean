import WanStack.Racoon.RecvdPkt
import Mathlib.Data.Nat.Digits.Defs
import Mathlib.Data.Set.Basic

set_option autoImplicit false

/-!
# Masked addresses

`mask_sockaddr` of `sockmisc.c`, on the memory from the address of a socket
address on, and the network that an address and a prefix length stand for.
-/
namespace WanStack.Racoon.Networks

/-! ### Sets given by some coordinates -/

section
variable {ι β : Type} [DecidableEq ι] [Nontrivial β] {S T : Set ι} {f g : ι → β}

/-- The families that are `f` on `S`. -/
def cylinder (S : Set ι) (f : ι → β) : Set (ι → β) := {x | ∀ i ∈ S, x i = f i}

/-- The more coordinates are given, the smaller the set. -/
theorem cylinder_subset_iff : cylinder S f ⊆ cylinder T g ↔ ∀ i ∈ T, i ∈ S ∧ f i = g i := by
  constructor
  · intro hsub i hi
    constructor
    · by_contra hout
      obtain ⟨v, hv⟩ := exists_ne (g i)
      have hmem : Function.update f i v ∈ cylinder S f := by
        intro j hj
        exact Function.update_of_ne (fun heq : j = i => hout (heq ▸ hj)) v f
      have hval := hsub hmem i hi
      rw [Function.update_self] at hval
      exact hv hval
    · exact hsub (fun _ _ => rfl) i hi
  · intro h x hx i hi
    rw [hx i (h i hi).1, (h i hi).2]

end

/-! ### Memory -/

variable {n : ℕ}

def memAt (p : Vector UInt8 n) (i : ℕ) : UInt8 := p[i]?.getD 0

/-- The number in `len` bytes. -/
def number (p : Vector UInt8 n) (off len : ℕ) : ℕ :=
  Nat.ofDigits 256 ((List.range' off len).map fun i => (memAt p i).toNat)

/-- A socket address with the memory behind its port: `sin_addr` and `sin_zero`, or
    `sin6_addr` and `sin6_scope_id`. -/
inductive Saddr where
  | unspec
  | inet (port : ℕ) (mem : Vector UInt8 12)
  | inet6 (port : ℕ) (mem : Vector UInt8 20)
  | other (family : ℕ)
deriving DecidableEq

/-- The parts that `cmpsaddr` looks at. -/
def Saddr.sockaddr : Saddr → Sockaddr
  | .unspec => .unspec
  | .inet port mem => .inet (number mem 0 4) port
  | .inet6 port mem => .inet6 (number mem 0 16) (number mem 16 4) port
  | .other _ => .other

/-- `(0xff00 >> r) & 0xff` -/
def keep (r : ℕ) : UInt8 := UInt8.ofNat (0xff00 >>> r &&& 0xff)

/-- The writes of `mask_sockaddr` from the address on. -/
def maskBytes (alen l : ℕ) (p : Vector UInt8 n) : Vector UInt8 n :=
  (List.range' (l / 8 + 1) (alen - (l / 8 + 1))).foldl (fun p i => p.setIfInBounds i 0)
    (p.setIfInBounds (l / 8) (memAt p (l / 8) &&& keep (l % 8)))

/-- The masked address. The process exits on another family and on a length above that
    of an address. -/
def maskSockaddr (b : Saddr) (l : ℕ) : Option Saddr :=
  match b with
  | .inet port mem => if 4 * 8 < l then none else some (.inet port (maskBytes 4 l mem))
  | .inet6 port mem => if 16 * 8 < l then none else some (.inet6 port (maskBytes 16 l mem))
  | _ => none

variable {p q : Vector UInt8 n} {i alen l : ℕ}

theorem maskSockaddr_inet (hl : l ≤ 32) (port : ℕ) (mem : Vector UInt8 12) :
    maskSockaddr (.inet port mem) l = some (.inet port (maskBytes 4 l mem)) := if_neg (by omega)

theorem maskSockaddr_inet6 (hl : l ≤ 128) (port : ℕ) (mem : Vector UInt8 20) :
    maskSockaddr (.inet6 port mem) l = some (.inet6 port (maskBytes 16 l mem)) := if_neg (by omega)

theorem memAt_set (v : UInt8) (j : ℕ) :
    memAt (p.setIfInBounds i v) j = if j = i ∧ i < n then v else memAt p j := by
  unfold memAt
  rw [Vector.getElem?_setIfInBounds]
  by_cases hij : i = j
  · subst hij
    by_cases hi : i < n
    · simp [hi]
    · have hout : p[i]? = none := Vector.getElem?_eq_none (by omega)
      simp [hi]
  · rw [if_neg hij, if_neg (fun h => hij h.1.symm)]

theorem memAt_clear (start len j : ℕ) :
    memAt ((List.range' start len).foldl (fun p i => p.setIfInBounds i 0) p) j =
      if start ≤ j ∧ j < start + len then 0 else memAt p j := by
  induction len generalizing start p with
  | zero => rw [if_neg (by omega)]; rfl
  | succ len ih =>
    rw [List.range'_succ, List.foldl_cons, ih, memAt_set]
    by_cases hout : n ≤ j
    · have hnone : memAt p j = 0 := by
        unfold memAt
        rw [Vector.getElem?_eq_none hout]
        rfl
      rw [hnone]
      split_ifs <;> rfl
    · split_ifs <;> first | rfl | omega

/-- One byte of a masked address. -/
def maskByte (alen l j : ℕ) (b : UInt8) : UInt8 :=
  if j = l / 8 then b &&& keep (l % 8) else if l / 8 < j ∧ j < alen then 0 else b

theorem memAt_maskBytes (j : ℕ) : memAt (maskBytes alen l p) j = maskByte alen l j (memAt p j) := by
  unfold maskBytes maskByte
  rw [memAt_clear, memAt_set]
  by_cases hj : j = l / 8
  · subst hj
    rw [if_neg (by omega), if_pos rfl]
    by_cases hin : l / 8 < n
    · rw [if_pos ⟨rfl, hin⟩]
    · have hnone : memAt p (l / 8) = 0 := by
        unfold memAt
        rw [Vector.getElem?_eq_none (by omega)]
        rfl
      rw [if_neg (fun h => hin h.2), hnone, UInt8.zero_and]
  · rw [if_neg hj]
    split_ifs <;> first | rfl | omega

/-- Memory behind the address stays as it is exactly when the mask ends inside the address, or
    the byte behind it is zero. -/
theorem maskBytes_outside_iff (p : Vector UInt8 n) {alen l : ℕ} (hl : l ≤ alen * 8) :
    (∀ j, alen ≤ j → memAt (maskBytes alen l p) j = memAt p j) ↔
      l < alen * 8 ∨ memAt p alen = 0 := by
  have hzero : keep 0 = 0 := rfl
  constructor
  · intro h
    by_cases hlt : l < alen * 8
    · exact Or.inl hlt
    · right
      have hdiv : l / 8 = alen := by omega
      have hmod : l % 8 = 0 := by omega
      have hbehind := h alen (le_refl _)
      rw [memAt_maskBytes, maskByte, if_pos hdiv.symm, hmod, hzero, UInt8.and_zero] at hbehind
      exact hbehind.symm
  · intro h j hj
    rw [memAt_maskBytes, maskByte]
    by_cases hj' : j = l / 8
    · have halen : j = alen := by omega
      have hmod : l % 8 = 0 := by omega
      have hbyte : memAt p j = 0 := by
        rw [halen]
        exact h.resolve_left (by omega)
      rw [if_pos hj', hmod, hzero, hbyte, UInt8.and_zero]
    · rw [if_neg hj', if_neg (by omega)]

/-! ### Bits -/

/-- The bits of memory, the first one the highest of the first byte. -/
def bitAt (p : Vector UInt8 n) (i : ℕ) : Bool := (memAt p (i / 8)).toNat.testBit (7 - i % 8)

theorem keep_testBit : ∀ r < 8, ∀ k < 8, (keep r).toNat.testBit (7 - k) = decide (k < r) := by
  decide +kernel

theorem byte_eq_iff (b c : UInt8) :
    b = c ↔ ∀ k < 8, b.toNat.testBit (7 - k) = c.toNat.testBit (7 - k) := by
  constructor
  · rintro rfl k _
    rfl
  · intro h
    apply UInt8.toNat_inj.mp
    apply Nat.eq_of_testBit_eq
    intro k
    by_cases hk : k < 8
    · have hbit := h (7 - k) (by omega)
      rwa [show 7 - (7 - k) = k by omega] at hbit
    · have hlt : ∀ x : UInt8, x.toNat.testBit k = false := fun x =>
        Nat.testBit_lt_two_pow ((UInt8.toNat_lt x).trans_le (Nat.pow_le_pow_right (by decide) (not_lt.mp hk)))
      rw [hlt, hlt]

/-- Under a mask of `r` ones the first `r` bits are compared. -/
theorem byte_and_eq_iff {r : ℕ} (hr : r < 8) (b c : UInt8) :
    b &&& keep r = c &&& keep r ↔ ∀ k < r, b.toNat.testBit (7 - k) = c.toNat.testBit (7 - k) := by
  rw [byte_eq_iff]
  constructor
  · intro h k hk
    have hbit := h k (by omega)
    rw [UInt8.toNat_and, UInt8.toNat_and, Nat.testBit_and, Nat.testBit_and,
      keep_testBit r hr k (by omega)] at hbit
    simpa [hk] using hbit
  · intro h k hk
    rw [UInt8.toNat_and, UInt8.toNat_and, Nat.testBit_and, Nat.testBit_and, keep_testBit r hr k hk]
    by_cases hkr : k < r
    · rw [h k hkr]
    · simp [hkr]

/-- Two masked addresses are equal exactly when they have the bits of the prefix in common. -/
theorem masked_eq_iff (alen : ℕ) {l : ℕ} (hl : l ≤ alen * 8) :
    (∀ j < alen, memAt (maskBytes alen l p) j = memAt (maskBytes alen l q) j) ↔
      ∀ i < l, bitAt p i = bitAt q i := by
  constructor
  · intro h i hi
    have hbyte := h (i / 8) (by omega)
    rw [memAt_maskBytes, memAt_maskBytes, maskByte, maskByte] at hbyte
    unfold bitAt
    by_cases hlast : i / 8 = l / 8
    · rw [if_pos hlast, if_pos hlast, byte_and_eq_iff (by omega)] at hbyte
      exact hbyte (i % 8) (by omega)
    · rw [if_neg hlast, if_neg hlast, if_neg (by omega), if_neg (by omega)] at hbyte
      rw [hbyte]
  · intro h j hj
    rw [memAt_maskBytes, memAt_maskBytes, maskByte, maskByte]
    have hbit : ∀ k < 8, 8 * j + k < l →
        (memAt p j).toNat.testBit (7 - k) = (memAt q j).toNat.testBit (7 - k) := by
      intro k hk hlt
      have hbits := h (8 * j + k) hlt
      unfold bitAt at hbits
      rwa [show (8 * j + k) / 8 = j by omega, show (8 * j + k) % 8 = k by omega] at hbits
    by_cases hlast : j = l / 8
    · rw [if_pos hlast, if_pos hlast, byte_and_eq_iff (by omega)]
      exact fun k hk => hbit k (by omega) (by omega)
    · rw [if_neg hlast, if_neg hlast]
      by_cases hbehind : l / 8 < j ∧ j < alen
      · rw [if_pos hbehind, if_pos hbehind]
      · rw [if_neg hbehind, if_neg hbehind, byte_eq_iff]
        exact fun k hk => hbit k hk (by omega)

theorem number_eq_iff {m : ℕ} {p : Vector UInt8 n} {q : Vector UInt8 m} (off len : ℕ) :
    number p off len = number q off len ↔ ∀ j, off ≤ j → j < off + len → memAt p j = memAt q j := by
  have hdigit : ∀ {k : ℕ} (x : Vector UInt8 k),
      ∀ d ∈ (List.range' off len).map (fun i => (memAt x i).toNat), d < 256 := by
    intro k x d hd
    obtain ⟨i, -, rfl⟩ := List.mem_map.mp hd
    exact UInt8.toNat_lt _
  constructor
  · intro h j hlo hhi
    have hlist := Nat.ofDigits_inj_of_len_eq (by decide) (by simp) (hdigit p) (hdigit q) h
    have hmem : j ∈ List.range' off len := List.mem_range'_1.mpr ⟨hlo, hhi⟩
    exact UInt8.toNat_inj.mp (List.map_inj_left.mp hlist j hmem)
  · intro h
    unfold number
    congr 1
    apply List.map_congr_left
    intro j hj
    have hrange := List.mem_range'_1.mp hj
    rw [h j hrange.1 hrange.2]

/-! ### Networks -/

/-- The addresses of `w` bits that share the first `l` bits of one. -/
def network (w : ℕ) (p : Vector UInt8 n) (l : ℕ) : Set (Fin w → Bool) :=
  cylinder {i | i.val < l} fun i => bitAt p i.val

theorem network_subset_iff {w l' : ℕ} :
    network w p l ⊆ network w q l' ↔ ∀ i < w, i < l' → i < l ∧ bitAt p i = bitAt q i := by
  unfold network
  rw [cylinder_subset_iff]
  constructor
  · intro h i hi hl
    exact h ⟨i, hi⟩ hl
  · intro h i hi
    exact h i.val i.isLt hi

end WanStack.Racoon.Networks
