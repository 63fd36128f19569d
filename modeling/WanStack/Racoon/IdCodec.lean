import WanStack.Racoon.ResponderLifetime

set_option autoImplicit false

/-!
# Identities of phase 2

`ipsecdoi_sockaddr2id` writes an address with its prefix as an identity, and
`ipsecdoi_id2sockaddr` reads one. Protocol 0 and the wildcard are one protocol on
the wire. A mask is read up to its first zero.
-/
namespace WanStack.Racoon.Quick
open Aftr (Buf byteAt shortAt bytesAt)
open Proposal (long longAt)

/-! ### Writing -/

/-- The mask of `bits` ones in `n` zeroed bytes. -/
def maskOf : ℕ → ℕ → Buf
  | 0, _ => []
  | n + 1, bits =>
    if 8 ≤ bits then 255 :: maskOf n (bits - 8)
    else UInt8.ofNat (if 0 < bits then 255 - (2 ^ (8 - bits) - 1) else 0) :: List.replicate n 0

/-- `struct ipsecdoi_id_b` and the data behind it. -/
def idOf (type ulProto port : ℕ) (data : Buf) : Buf :=
  [UInt8.ofNat type, UInt8.ofNat (if ulProto = IPSEC_ULPROTO_ANY then 0 else ulProto)] ++
    (short (if port = IPSEC_PORT_ANY then 0 else port) ++ data)

/-- The 16 bytes of an address. -/
def in6Bytes (addr : ℕ) : Buf :=
  long (addr / 79228162514264337593543950336) ++ (long (addr / 18446744073709551616) ++
    (long (addr / 4294967296) ++ long addr))

def ipsecdoiSockaddr2id (saddr : Sockaddr) (prefixlen ulProto : ℕ) : Option Buf :=
  match saddr with
  | .inet addr port =>
    if 32 ≤ prefixlen then some (idOf IPSECDOI_ID_IPV4_ADDR ulProto port (long addr))
    else some (idOf IPSECDOI_ID_IPV4_ADDR_SUBNET ulProto port (long addr ++ maskOf 4 prefixlen))
  | .inet6 addr _ port =>
    if 128 ≤ prefixlen then some (idOf IPSECDOI_ID_IPV6_ADDR ulProto port (in6Bytes addr))
    else some (idOf IPSECDOI_ID_IPV6_ADDR_SUBNET ulProto port (in6Bytes addr ++ maskOf 16 prefixlen))
  | _ => none

/-! ### What is read -/

def linkLocalAt (v : Buf) : Prop :=
  byteAt v ID_B_LEN = 0xfe ∧ (byteAt v (ID_B_LEN + 1)).toNat / 64 = 2

instance (v : Buf) : Decidable (linkLocalAt v) := by
  unfold linkLocalAt
  infer_instance

/-- The bytes of a mask that are looked at, of `n` bytes from `off` on. -/
def maskReads : ℕ → Buf → ℕ → List ℕ
  | 0, _, _ => []
  | n + 1, mask, off => off :: if byteAt mask 0 = 255 then maskReads n (mask.drop 1) (off + 1) else []

/-- The bytes of an identity that `ipsecdoi_id2sockaddr` looks at: type, port and address,
    the scope of a link local address, the mask, the protocol. -/
def idReads (heap buf : Buf) : List ℕ :=
  let v := buf ++ heap
  let type := (byteAt v 0).toNat
  let inet := 0 :: (List.range' 2 2 ++ List.range' ID_B_LEN 4)
  let inet6 := 0 :: (List.range' 2 2 ++ (List.range' ID_B_LEN 16 ++ if linkLocalAt v then List.range' 24 4 else []))
  if type = IPSECDOI_ID_IPV4_ADDR then inet ++ [1]
  else if type = IPSECDOI_ID_IPV4_ADDR_SUBNET then
    if buf.length < 4 then inet
    else inet ++ (maskReads 4 (v.drop (ID_B_LEN + 4)) (ID_B_LEN + 4) ++ [1])
  else if type = IPSECDOI_ID_IPV6_ADDR then inet6 ++ [1]
  else if type = IPSECDOI_ID_IPV6_ADDR_SUBNET then
    if buf.length < 16 then inet6
    else inet6 ++ (maskReads 16 (v.drop (ID_B_LEN + 16)) (ID_B_LEN + 16) ++ [1])
  else [0]

/-- How long an identity of its type has to be. -/
def idNeeds (buf : Buf) : ℕ :=
  let type := (byteAt buf 0).toNat
  if type = IPSECDOI_ID_IPV4_ADDR then ID_B_LEN + 4
  else if type = IPSECDOI_ID_IPV4_ADDR_SUBNET then ID_B_LEN + 8
  else if type = IPSECDOI_ID_IPV6_ADDR then if linkLocalAt buf then 28 else ID_B_LEN + 16
  else if type = IPSECDOI_ID_IPV6_ADDR_SUBNET then ID_B_LEN + 32
  else 1

/-! ### Masks -/

/-- The bits of a byte, the highest first. -/
def bitsOf (b : UInt8) : List Bool := (List.range 8).map fun i => b.toNat.testBit (7 - i)

/-- The ones in front of the first zero. -/
def leadingOnes (mask : Buf) : ℕ := ((mask.flatMap bitsOf).takeWhile id).length

/-- The prefix of an identity by its type and mask. -/
def prefixOf (buf : Buf) : ℕ :=
  let type := (byteAt buf 0).toNat
  if type = IPSECDOI_ID_IPV4_ADDR then 32
  else if type = IPSECDOI_ID_IPV4_ADDR_SUBNET then leadingOnes (bytesAt buf (ID_B_LEN + 4) 4)
  else if type = IPSECDOI_ID_IPV6_ADDR then 128
  else leadingOnes (bytesAt buf (ID_B_LEN + 16) 16)

theorem byte_ones : ∀ b : Fin 256, ((bitsOf (UInt8.ofNat b)).takeWhile id).length = 8 - bitLength (255 - b) := by
  decide +kernel

theorem bitLength_pos {n : ℕ} (h : 0 < n) : 0 < bitLength n := by
  rw [bitLength, if_neg (by omega)]
  omega

theorem leadingOnes_cons (b : UInt8) (mask : Buf) :
    leadingOnes (b :: mask) = if b = 255 then 8 + leadingOnes mask else 8 - bitLength (255 - b.toNat) := by
  have hlt : b.toNat < 256 := UInt8.toNat_lt b
  have hones := byte_ones ⟨b.toNat, hlt⟩
  rw [UInt8.ofNat_toNat] at hones
  dsimp only at hones
  have hlength : (bitsOf b).length = 8 := by simp [bitsOf]
  rw [leadingOnes, List.flatMap_cons, List.takeWhile_append, hones, hlength]
  by_cases hb : b = 255
  · subst hb
    rw [if_pos rfl, if_pos (by decide), List.length_append, hlength]
    rfl
  · have hpos : 0 < bitLength (255 - b.toNat) := by
      apply bitLength_pos
      have hne : b.toNat ≠ 255 := fun h => hb (UInt8.toNat_inj.mp h)
      omega
    rw [if_neg hb, if_neg (by omega), hones]

theorem maskLen_eq (n : ℕ) (mask : Buf) (h : n ≤ mask.length) : maskLen n mask = leadingOnes (mask.take n) := by
  induction n generalizing mask with
  | zero => rfl
  | succ n ih =>
    cases mask with
    | nil => simp at h
    | cons b mask =>
      have hrest := ih mask (by simpa using h)
      rw [List.take_succ_cons, leadingOnes_cons, ← hrest]
      rfl

/-- The last byte of a mask that has a one. -/
theorem byte_mask : ∀ bits < 8, UInt8.ofNat (if 0 < bits then 255 - (2 ^ (8 - bits) - 1) else 0) ≠ 255 ∧
    8 - bitLength (255 - (UInt8.ofNat (if 0 < bits then 255 - (2 ^ (8 - bits) - 1) else 0)).toNat) = bits := by
  decide +kernel

theorem maskLen_maskOf (n bits : ℕ) (h : bits < 8 * n) (rest : Buf) : maskLen n (maskOf n bits ++ rest) = bits := by
  induction n generalizing bits with
  | zero => omega
  | succ n ih =>
    rw [maskOf]
    split
    · have hrest := ih (bits - 8) (by omega)
      change 8 + maskLen n (maskOf n (bits - 8) ++ rest) = bits
      omega
    · obtain ⟨hne, hbits⟩ := byte_mask bits (by omega)
      rw [List.cons_append, maskLen]
      change (if UInt8.ofNat (if 0 < bits then 255 - (2 ^ (8 - bits) - 1) else 0) = 255 then _ else _) = _
      rw [if_neg hne]
      exact hbits

/-! ### Fields -/

section Fields
variable (type ulProto port : ℕ) (data rest : Buf)

theorem byteAt_type (ht : type < 256) : (byteAt (idOf type ulProto port data ++ rest) 0).toNat = type := by
  change (UInt8.ofNat type).toNat = type
  rw [UInt8.toNat_ofNat']
  omega

theorem byteAt_proto (hp : ulProto < 256) :
    (byteAt (idOf type ulProto port data ++ rest) 1).toNat = if ulProto = IPSEC_ULPROTO_ANY then 0 else ulProto := by
  change (UInt8.ofNat (if ulProto = IPSEC_ULPROTO_ANY then 0 else ulProto)).toNat = _
  rw [UInt8.toNat_ofNat']
  split <;> omega

theorem shortAt_port (hp : port < 65536) : shortAt (idOf type ulProto port data ++ rest) 2 = port := by
  have hport : (if port = IPSEC_PORT_ANY then 0 else port) = port := by
    split
    · rename_i h
      exact h.symm
    · rfl
  have hread := Proposal.shortAt_append
    [UInt8.ofNat type, UInt8.ofNat (if ulProto = IPSEC_ULPROTO_ANY then 0 else ulProto)] (short port ++ (data ++ rest)) 0
  rw [Proposal.shortAt_short port hp] at hread
  rw [idOf, hport]
  simpa using hread

theorem longAt_data (i : ℕ) : longAt (idOf type ulProto port data ++ rest) (ID_B_LEN + i) = longAt (data ++ rest) i := by
  have hread := Lifetime.longAt_behind (idOf type ulProto port []) (data ++ rest) i
  simpa [idOf, ID_B_LEN] using hread

theorem drop_data (i : ℕ) : (idOf type ulProto port data ++ rest).drop (ID_B_LEN + i) = (data ++ rest).drop i := by
  simp [idOf, ID_B_LEN, short, Nat.add_comm 4 i]

end Fields

theorem longAt_low (n : ℕ) (rest : Buf) : longAt (long n ++ rest) 0 = n % 4294967296 := by
  simp only [longAt, shortAt, byteAt, long, short, Aftr.hi, Aftr.lo, List.cons_append, List.nil_append,
    List.getD_cons_zero, List.getD_cons_succ, Nat.zero_add, UInt8.toNat_ofNat']
  omega

theorem longAt_in6 {addr : ℕ} (h : addr < 2 ^ 128) (rest : Buf) :
    ((longAt (in6Bytes addr ++ rest) 0 * 4294967296 + longAt (in6Bytes addr ++ rest) 4) * 4294967296 +
      longAt (in6Bytes addr ++ rest) 8) * 4294967296 + longAt (in6Bytes addr ++ rest) 12 = addr := by
  have hword : ∀ (front : Buf) (n : ℕ) (behind : Buf), longAt (front ++ (long n ++ behind)) front.length = n % 4294967296 := by
    intro front n behind
    have hbehind := Lifetime.longAt_behind front (long n ++ behind) 0
    rw [Nat.add_zero] at hbehind
    rw [hbehind, longAt_low]
  have h0 := hword [] (addr / 79228162514264337593543950336)
    (long (addr / 18446744073709551616) ++ (long (addr / 4294967296) ++ (long addr ++ rest)))
  have h4 := hword (long (addr / 79228162514264337593543950336)) (addr / 18446744073709551616)
    (long (addr / 4294967296) ++ (long addr ++ rest))
  have h8 := hword (long (addr / 79228162514264337593543950336) ++ long (addr / 18446744073709551616))
    (addr / 4294967296) (long addr ++ rest)
  have h12 := hword (long (addr / 79228162514264337593543950336) ++ (long (addr / 18446744073709551616) ++
    long (addr / 4294967296))) addr rest
  simp only [List.append_assoc, List.nil_append, List.length_append, Proposal.long_length, List.length_nil] at h0 h4 h8 h12
  simp only [in6Bytes, List.append_assoc]
  rw [h0, h4, h8, h12]
  omega

section In6
variable {addr : ℕ} (h : addr < 2 ^ 128) (type ulProto : ℕ) {port : ℕ} (data rest : Buf)
include h

theorem linkLocalAt_id : linkLocalAt (idOf type ulProto port (in6Bytes addr ++ data) ++ rest) ↔
    addr / 2 ^ 118 = 0x3fa := by
  have h4 : (byteAt (idOf type ulProto port (in6Bytes addr ++ data) ++ rest) ID_B_LEN).toNat = addr / 2 ^ 120 := by
    change (UInt8.ofNat (addr / 79228162514264337593543950336 / 65536 / 256)).toNat = _
    rw [UInt8.toNat_ofNat']
    omega
  have h5 : (byteAt (idOf type ulProto port (in6Bytes addr ++ data) ++ rest) (ID_B_LEN + 1)).toNat =
      addr / 2 ^ 112 % 256 := by
    change (UInt8.ofNat (addr / 79228162514264337593543950336 / 65536)).toNat = _
    rw [UInt8.toNat_ofNat']
    omega
  rw [linkLocalAt, ← UInt8.toNat_inj, h4, h5]
  change addr / 2 ^ 120 = 254 ∧ _ ↔ _
  omega

/-- An address is read back; the scope is taken from elsewhere if it is a link local one. -/
theorem inet6Of_id (hport : port < 65536) : ∃ scope,
    inet6Of (idOf type ulProto port (in6Bytes addr ++ data) ++ rest) = .inet6 addr scope port ∧
      (addr / 2 ^ 118 ≠ 0x3fa → scope = 0) := by
  have hword := longAt_data type ulProto port (in6Bytes addr ++ data) rest
  have haddr := longAt_in6 h (data ++ rest)
  rw [← List.append_assoc, ← hword, ← hword, ← hword, ← hword] at haddr
  refine ⟨if linkLocalAt (idOf type ulProto port (in6Bytes addr ++ data) ++ rest) then
    longAt (idOf type ulProto port (in6Bytes addr ++ data) ++ rest) 24 else 0, ?_, ?_⟩
  · change Sockaddr.inet6 _ _ _ = _
    rw [shortAt_port _ _ _ _ _ hport]
    congr 1
  · intro hglobal
    rw [if_neg (mt (linkLocalAt_id h type ulProto data rest).mp hglobal)]

end In6

/-! ### The round trip -/

/-- What is read of the protocol that is written. -/
theorem proto_reads {ulProto : ℕ} (h : ulProto ≠ 0) :
    (if (if ulProto = IPSEC_ULPROTO_ANY then 0 else ulProto) = 0 then IPSEC_ULPROTO_ANY
      else if ulProto = IPSEC_ULPROTO_ANY then 0 else ulProto) = ulProto := by
  split_ifs <;> omega

section RoundTrip
variable (heap : Buf) (port : UInt16) (plen : ℕ) {ulProto : UInt8} (hproto : ulProto ≠ 0)
include hproto

theorem inet_roundTrips (addr : BitVec 32) (hplen : plen ≤ 32) :
    ipsecdoiId2sockaddr heap (ipsecdoiSockaddr2id (.inet addr.toNat port.toNat) plen ulProto.toNat) =
      .addr (.inet addr.toNat port.toNat) plen ulProto.toNat := by
  have hread := proto_reads fun h => hproto (UInt8.toNat_inj.mp h)
  have haddr : ∀ type data, longAt (idOf type ulProto.toNat port.toNat (long addr.toNat ++ data) ++ heap) ID_B_LEN =
      addr.toNat := by
    intro type data
    have h0 := longAt_data type ulProto.toNat port.toNat (long addr.toNat ++ data) heap 0
    rw [Nat.add_zero] at h0
    rw [h0, List.append_assoc, Proposal.longAt_long _ addr.isLt]
  by_cases hhost : 32 ≤ plen
  · have h32 : plen = 32 := by omega
    have hhostaddr := haddr IPSECDOI_ID_IPV4_ADDR []
    rw [List.append_nil] at hhostaddr
    rw [ipsecdoiSockaddr2id, if_pos hhost, ipsecdoiId2sockaddr, if_neg (by simp [idOf])]
    dsimp only
    rw [byteAt_type _ _ _ _ _ (by decide), if_pos rfl, byteAt_proto _ _ _ _ _ ulProto.toNat_lt, hread,
      shortAt_port _ _ _ _ _ port.toNat_lt, hhostaddr, h32]
  · have hmask : maskLen 4 ((idOf IPSECDOI_ID_IPV4_ADDR_SUBNET ulProto.toNat port.toNat
        (long addr.toNat ++ maskOf 4 plen) ++ heap).drop (ID_B_LEN + 4)) = plen := by
      rw [drop_data, List.append_assoc, List.drop_left' (Proposal.long_length _)]
      exact maskLen_maskOf 4 plen (by omega) heap
    rw [ipsecdoiSockaddr2id, if_neg hhost, ipsecdoiId2sockaddr, if_neg (by simp [idOf])]
    dsimp only
    rw [byteAt_type _ _ _ _ _ (by decide), if_neg (by decide), if_pos rfl, if_neg (by simp [idOf]),
      byteAt_proto _ _ _ _ _ ulProto.toNat_lt, hread, shortAt_port _ _ _ _ _ port.toNat_lt, haddr, hmask]

theorem inet6_roundTrips (addr : BitVec 128) (scope : ℕ) (hplen : plen ≤ 128) : ∃ scope',
    ipsecdoiId2sockaddr heap (ipsecdoiSockaddr2id (.inet6 addr.toNat scope port.toNat) plen ulProto.toNat) =
        .addr (.inet6 addr.toNat scope' port.toNat) plen ulProto.toNat ∧
      (addr.toNat / 2 ^ 118 ≠ 0x3fa → scope' = 0) := by
  have hread := proto_reads fun h => hproto (UInt8.toNat_inj.mp h)
  by_cases hhost : 128 ≤ plen
  · have h128 : plen = 128 := by omega
    obtain ⟨scope', haddr, hscope⟩ := inet6Of_id addr.isLt IPSECDOI_ID_IPV6_ADDR ulProto.toNat [] heap port.toNat_lt
    rw [List.append_nil] at haddr
    refine ⟨scope', ?_, hscope⟩
    rw [ipsecdoiSockaddr2id, if_pos hhost, ipsecdoiId2sockaddr, if_neg (by simp [idOf])]
    dsimp only
    rw [byteAt_type _ _ _ _ _ (by decide), if_neg (by decide), if_neg (by decide), if_pos rfl,
      byteAt_proto _ _ _ _ _ ulProto.toNat_lt, hread, haddr, h128]
  · obtain ⟨scope', haddr, hscope⟩ :=
      inet6Of_id addr.isLt IPSECDOI_ID_IPV6_ADDR_SUBNET ulProto.toNat (maskOf 16 plen) heap port.toNat_lt
    have hmask : maskLen 16 ((idOf IPSECDOI_ID_IPV6_ADDR_SUBNET ulProto.toNat port.toNat
        (in6Bytes addr.toNat ++ maskOf 16 plen) ++ heap).drop (ID_B_LEN + 16)) = plen := by
      rw [drop_data, List.append_assoc, List.drop_left' (by simp [in6Bytes])]
      exact maskLen_maskOf 16 plen (by omega) heap
    refine ⟨scope', ?_, hscope⟩
    rw [ipsecdoiSockaddr2id, if_neg hhost, ipsecdoiId2sockaddr, if_neg (by simp [idOf])]
    dsimp only
    rw [byteAt_type _ _ _ _ _ (by decide), if_neg (by decide), if_neg (by decide), if_neg (by decide), if_pos rfl,
      if_neg (by simp [idOf, in6Bytes]; omega), byteAt_proto _ _ _ _ _ ulProto.toNat_lt, hread, haddr, hmask]

end RoundTrip

/-! ### Identities as they are received -/

theorem maskReads_within (n : ℕ) (mask : Buf) (off : ℕ) : ∀ o ∈ maskReads n mask off, o < off + n := by
  induction n generalizing mask off with
  | zero => simp [maskReads]
  | succ n ih =>
    intro o ho
    rw [maskReads, List.mem_cons] at ho
    obtain rfl | ho := ho
    · omega
    · split at ho
      · have hrest := ih _ _ o ho
        omega
      · cases ho

theorem idNeeds_pos (buf : Buf) : 0 < idNeeds buf := by
  unfold idNeeds
  dsimp only
  split_ifs <;> simp [ID_B_LEN]

section Received
variable {buf : Buf} (h : idNeeds buf ≤ buf.length) (heap : Buf)
include h

theorem type_append : byteAt (buf ++ heap) 0 = byteAt buf 0 :=
  Aftr.byteAt_append_left (Nat.lt_of_lt_of_le (idNeeds_pos buf) h)

omit h in
theorem linkLocalAt_append (h : 6 ≤ buf.length) : linkLocalAt (buf ++ heap) ↔ linkLocalAt buf := by
  rw [linkLocalAt, Aftr.byteAt_append_left (by simp only [ID_B_LEN]; omega),
    Aftr.byteAt_append_left (by simp only [ID_B_LEN]; omega)]
  rfl

/-- Nothing is read outside of an identity that is as long as its type needs. -/
theorem idReads_within : ∀ o ∈ idReads heap buf, o < buf.length := by
  intro o ho
  have hpos := Nat.lt_of_lt_of_le (idNeeds_pos buf) h
  unfold idNeeds at h
  unfold idReads at ho
  dsimp only at h ho
  rw [type_append (by assumption) heap] at ho
  by_cases h1 : (byteAt buf 0).toNat = IPSECDOI_ID_IPV4_ADDR
  · rw [if_pos h1] at h ho
    simp only [List.mem_append, List.mem_cons, List.mem_range'_1, List.not_mem_nil, or_false, ID_B_LEN] at h ho
    omega
  rw [if_neg h1] at h ho
  by_cases h4 : (byteAt buf 0).toNat = IPSECDOI_ID_IPV4_ADDR_SUBNET
  · rw [if_pos h4] at h ho
    rw [if_neg (by omega)] at ho
    rw [List.mem_append, List.mem_append] at ho
    obtain ho | hmask | ho := ho
    · simp only [List.mem_append, List.mem_cons, List.mem_range'_1, ID_B_LEN] at h ho
      omega
    · have hwithin := maskReads_within _ _ _ o hmask
      omega
    · rw [List.mem_singleton.mp ho]
      omega
  rw [if_neg h4] at h ho
  by_cases h5 : (byteAt buf 0).toNat = IPSECDOI_ID_IPV6_ADDR
  · rw [if_pos h5] at h ho
    have hlong : ID_B_LEN + 16 ≤ buf.length := by
      split at h
      · simp only [ID_B_LEN]
        omega
      · exact h
    have hlocal := linkLocalAt_append heap (Nat.le_trans (by decide) hlong)
    by_cases hl : linkLocalAt buf
    · rw [if_pos hl] at h
      rw [if_pos (hlocal.mpr hl)] at ho
      simp only [List.mem_append, List.mem_cons, List.mem_range'_1, List.not_mem_nil, or_false, ID_B_LEN] at h ho
      omega
    · rw [if_neg (mt hlocal.mp hl)] at ho
      simp only [List.mem_append, List.mem_cons, List.mem_range'_1, List.not_mem_nil, or_false, ID_B_LEN] at hlong ho
      omega
  rw [if_neg h5] at h ho
  by_cases h6 : (byteAt buf 0).toNat = IPSECDOI_ID_IPV6_ADDR_SUBNET
  · rw [if_pos h6] at h ho
    rw [if_neg (by omega)] at ho
    rw [List.mem_append, List.mem_append, List.mem_cons, List.mem_append, List.mem_append] at ho
    simp only [ID_B_LEN] at h
    obtain (rfl | hport | haddr | hscope) | hmask | ho := ho
    · omega
    · have hport := List.mem_range'_1.mp hport
      omega
    · have haddr := List.mem_range'_1.mp haddr
      simp only [ID_B_LEN] at haddr
      omega
    · split at hscope
      · have hscope := List.mem_range'_1.mp hscope
        omega
      · cases hscope
    · have hwithin := maskReads_within _ _ _ o hmask
      simp only [ID_B_LEN] at hwithin
      omega
    · rw [List.mem_singleton.mp ho]
      omega
  · rw [if_neg h6] at ho
    rw [List.mem_singleton.mp ho]
    exact hpos

omit h in
theorem maskLen_append {n off : ℕ} (hlong : off + n ≤ buf.length) :
    maskLen n ((buf ++ heap).drop off) = leadingOnes (bytesAt buf off n) := by
  have hdrop : (buf ++ heap).drop off = buf.drop off ++ heap := List.drop_append_of_le_length (by omega)
  rw [maskLen_eq n _ (by simp; omega), hdrop, List.take_append_of_le_length (by simp; omega), bytesAt]

/-- The prefix of an identity that is accepted is the number of ones in front of the
    first zero of its mask. -/
theorem prefix_received {saddr : Sockaddr} {plen ulProto : ℕ}
    (hread : ipsecdoiId2sockaddr heap (some buf) = .addr saddr plen ulProto) : plen = prefixOf buf := by
  have hpos := Nat.lt_of_lt_of_le (idNeeds_pos buf) h
  have hne : buf ≠ [] := List.ne_nil_of_length_pos hpos
  unfold idNeeds at h
  unfold ipsecdoiId2sockaddr at hread
  unfold prefixOf
  dsimp only at h hread ⊢
  rw [if_neg hne, type_append (by assumption) heap] at hread
  by_cases h1 : (byteAt buf 0).toNat = IPSECDOI_ID_IPV4_ADDR
  · rw [if_pos h1] at hread ⊢
    exact (IdSockaddr.addr.inj hread).2.1.symm
  rw [if_neg h1] at h hread ⊢
  by_cases h4 : (byteAt buf 0).toNat = IPSECDOI_ID_IPV4_ADDR_SUBNET
  · rw [if_pos h4] at h hread ⊢
    rw [if_neg (by omega)] at hread
    rw [← (IdSockaddr.addr.inj hread).2.1]
    exact maskLen_append heap (by omega)
  rw [if_neg h4] at h hread ⊢
  by_cases h5 : (byteAt buf 0).toNat = IPSECDOI_ID_IPV6_ADDR
  · rw [if_pos h5] at hread ⊢
    exact (IdSockaddr.addr.inj hread).2.1.symm
  rw [if_neg h5] at h hread ⊢
  by_cases h6 : (byteAt buf 0).toNat = IPSECDOI_ID_IPV6_ADDR_SUBNET
  · rw [if_pos h6] at h hread
    rw [if_neg (by omega)] at hread
    rw [← (IdSockaddr.addr.inj hread).2.1]
    exact maskLen_append heap (by omega)
  · rw [if_neg h6] at hread
    cases hread

end Received

/-- Addresses, prefixes, ports and protocols other than 0 are read as they are written;
    of an identity as long as its type needs nothing outside is read, and the prefix
    is that of its mask. -/
theorem id_codec :
    (∀ (heap : Buf) (addr : BitVec 32) (port : UInt16) (plen : ℕ) (ulProto : UInt8), plen ≤ 32 → ulProto ≠ 0 →
      ipsecdoiId2sockaddr heap (ipsecdoiSockaddr2id (.inet addr.toNat port.toNat) plen ulProto.toNat) =
        .addr (.inet addr.toNat port.toNat) plen ulProto.toNat) ∧
    (∀ (heap : Buf) (addr : BitVec 128) (scope : ℕ) (port : UInt16) (plen : ℕ) (ulProto : UInt8), plen ≤ 128 →
      ulProto ≠ 0 → ∃ scope',
        ipsecdoiId2sockaddr heap (ipsecdoiSockaddr2id (.inet6 addr.toNat scope port.toNat) plen ulProto.toNat) =
            .addr (.inet6 addr.toNat scope' port.toNat) plen ulProto.toNat ∧
          (addr.toNat / 2 ^ 118 ≠ 0x3fa → scope' = 0)) ∧
    ∀ (heap buf : Buf), idNeeds buf ≤ buf.length →
      (∀ o ∈ idReads heap buf, o < buf.length) ∧
        ∀ saddr plen ulProto, ipsecdoiId2sockaddr heap (some buf) = .addr saddr plen ulProto → plen = prefixOf buf := by
  refine ⟨?_, ?_, ?_⟩
  · intro heap addr port plen ulProto hplen hproto
    exact inet_roundTrips heap port plen hproto addr hplen
  · intro heap addr scope port plen ulProto hplen hproto
    exact inet6_roundTrips heap port plen hproto addr scope hplen
  · intro heap buf h
    exact ⟨idReads_within h heap, fun saddr plen ulProto hread => prefix_received h heap hread⟩

/-- 10.0.0.0/8 for TCP, fd00::/8 for UDP, and 192.168.0.0/16 received. -/
theorem id_codec_nets :
    ipsecdoiId2sockaddr [] (ipsecdoiSockaddr2id (.inet (0x0a000000#32).toNat (500 : UInt16).toNat) 8 (6 : UInt8).toNat) =
        .addr (.inet (0x0a000000#32).toNat (500 : UInt16).toNat) 8 (6 : UInt8).toNat ∧
      (∃ scope',
        ipsecdoiId2sockaddr []
            (ipsecdoiSockaddr2id (.inet6 (0xfd000000000000000000000000000000#128).toNat 0 (0 : UInt16).toNat) 8
              (17 : UInt8).toNat) =
            .addr (.inet6 (0xfd000000000000000000000000000000#128).toNat scope' (0 : UInt16).toNat) 8
              (17 : UInt8).toNat ∧
          ((0xfd000000000000000000000000000000#128).toNat / 2 ^ 118 ≠ 0x3fa → scope' = 0)) ∧
      ∀ o ∈ idReads [] [4, 0, 0, 0, 192, 168, 0, 0, 255, 255, 0, 0],
        o < ([4, 0, 0, 0, 192, 168, 0, 0, 255, 255, 0, 0] : Buf).length :=
  ⟨id_codec.1 [] 0x0a000000#32 500 8 6 (by decide) (by decide),
    id_codec.2.1 [] 0xfd000000000000000000000000000000#128 0 0 8 17 (by decide) (by decide),
    (id_codec.2.2 [] [4, 0, 0, 0, 192, 168, 0, 0, 255, 255, 0, 0] (by decide)).1⟩

/-- Protocol 0 of 10.0.0.0/8 is read as the wildcard, and the mask 255.0.255.0 as a prefix
    of 8. -/
theorem wildcard_and_mask :
    ipsecdoiId2sockaddr [] (ipsecdoiSockaddr2id (.inet 167772160 0) 8 0) = .addr (.inet 167772160 0) 8 255 ∧
      ipsecdoiId2sockaddr [] (some [4, 0, 0, 0, 10, 0, 0, 0, 255, 0, 255, 0]) =
        .addr (.inet 167772160 0) 8 255 := by
  decide

end WanStack.Racoon.Quick
