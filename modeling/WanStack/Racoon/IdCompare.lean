import WanStack.Racoon.IdCodec
import WanStack.Racoon.Remoteconf

set_option autoImplicit false

/-!
# Comparison of identities

`ipsecdoi_chkcmpids` of `ipsec_doi.c`. An identity is `struct ipsecdoi_id_b`
followed by its data; a length without the header is a `size_t`. A read outside
an identity is `none`.
-/
namespace WanStack.Racoon.IdCompare
open Aftr (Buf byteAt)
open Phase1 (ID_B_LEN IPSECDOI_ID_IPV4_ADDR IPSECDOI_ID_IPV4_ADDR_SUBNET IPSECDOI_ID_IPV4_ADDR_RANGE
  IPSECDOI_ID_IPV6_ADDR IPSECDOI_ID_IPV6_ADDR_SUBNET IPSECDOI_ID_IPV6_ADDR_RANGE IPSECDOI_ID_FQDN
  IPSECDOI_ID_USER_FQDN IPSECDOI_ID_KEY_ID IPSECDOI_ID_DER_ASN1_DN IPSECDOI_ID_DER_ASN1_GN)
open Quick (linkLocalAt maskReads)

/-- `vchar_t`: the memory from `v` to the end of the object, and the length. -/
structure Vchar where
  v : Buf
  l : ℕ

/-- `l - sizeof(struct ipsecdoi_id_b)`. -/
def identLen (l : ℕ) : ℕ := if ID_B_LEN ≤ l then l - ID_B_LEN else 2 ^ 64 + l - ID_B_LEN

def identOf (id : Buf) : Vchar :=
  { v := id.drop ID_B_LEN
    l := identLen id.length }

def readByte (id : Buf) (i : ℕ) : Option ℕ := if i < id.length then some (byteAt id i).toNat else none

/-- Whether `n` bytes differ. All of them may be looked at. -/
def memcmp (a b : Buf) (n : ℕ) : Option ℤ :=
  if n ≤ a.length ∧ n ≤ b.length then some (if a.take n = b.take n then 0 else 1) else none

/-- The two functions for an address of `n` bytes. -/
def subnetisaddr (n : ℕ) (subnet address : Vchar) : Option ℤ :=
  if address.l ≠ n then some 1
  else if subnet.l ≠ n * 2 then some 1
  else
    (memcmp (subnet.v.drop n) (List.replicate n 255) n).bind fun mask =>
      if mask ≠ 0 then some 1 else memcmp subnet.v address.v address.l

def ipsecdoiSubnetisaddrV4 (subnet address : Vchar) : Option ℤ := subnetisaddr 4 subnet address

def ipsecdoiSubnetisaddrV6 (subnet address : Vchar) : Option ℤ := subnetisaddr 16 subnet address

/-- How a comparison goes on: `cmpid_result` is the label that logs both identities. -/
inductive Outcome where
  | returns (ret : ℤ)
  | cmpidResult (result : ℤ)
deriving DecidableEq, Repr

def Outcome.ret : Outcome → ℤ
  | .returns ret => ret
  | .cmpidResult result => if result = 0 then 0 else 1

section
variable (eayCmpAsn1dn : Buf → Buf → ℤ)

/-- The two names are decoded from all that is handed over. -/
def cmpAsn1dn (n1 n2 : Vchar) : Option ℤ :=
  if n1.l ≤ n1.v.length ∧ n2.l ≤ n2.v.length then
    some (eayCmpAsn1dn (n1.v.take n1.l) (n2.v.take n2.l))
  else none

/-- Behind the `switch`. -/
def matchData (identT identS : Vchar) : Option Outcome :=
  if identT.l = identS.l then (memcmp identT.v identS.v identT.l).map .cmpidResult
  else some (.cmpidResult 1)

def sized (n : ℕ) (identT identS : Vchar) : Option Outcome :=
  if identT.l ≠ n ∨ identS.l ≠ n then some (.returns (-1)) else matchData identT identS

def compareData (type : ℕ) (identT identS : Vchar) : Option Outcome :=
  if type = IPSECDOI_ID_DER_ASN1_DN ∨ type = IPSECDOI_ID_DER_ASN1_GN then
    (cmpAsn1dn eayCmpAsn1dn identT identS).map .cmpidResult
  else if type = IPSECDOI_ID_IPV4_ADDR then sized 4 identT identS
  else if type = IPSECDOI_ID_IPV4_ADDR_SUBNET ∨ type = IPSECDOI_ID_IPV4_ADDR_RANGE then
    sized (4 * 2) identT identS
  else if type = IPSECDOI_ID_IPV6_ADDR then sized 16 identT identS
  else if type = IPSECDOI_ID_IPV6_ADDR_SUBNET ∨ type = IPSECDOI_ID_IPV6_ADDR_RANGE then
    sized (16 * 2) identT identS
  else if type = IPSECDOI_ID_FQDN ∨ type = IPSECDOI_ID_USER_FQDN ∨ type = IPSECDOI_ID_KEY_ID then
    matchData identT identS
  else some (.returns (-1))

/-- Identities of two types. -/
def compareTypes (typeT typeS : ℕ) (identT identS : Vchar) : Option Outcome :=
  if typeS = IPSECDOI_ID_IPV4_ADDR ∧ typeT = IPSECDOI_ID_IPV4_ADDR_SUBNET then
    (ipsecdoiSubnetisaddrV4 identT identS).map .cmpidResult
  else if typeS = IPSECDOI_ID_IPV4_ADDR_SUBNET ∧ typeT = IPSECDOI_ID_IPV4_ADDR then
    (ipsecdoiSubnetisaddrV4 identS identT).map .cmpidResult
  else if typeS = IPSECDOI_ID_IPV6_ADDR ∧ typeT = IPSECDOI_ID_IPV6_ADDR_SUBNET then
    (ipsecdoiSubnetisaddrV6 identT identS).map .cmpidResult
  else if typeS = IPSECDOI_ID_IPV6_ADDR_SUBNET ∧ typeT = IPSECDOI_ID_IPV6_ADDR then
    (ipsecdoiSubnetisaddrV6 identS identT).map .cmpidResult
  else some (.returns 1)

def compareIds (idt ids : Buf) : Option Outcome :=
  (readByte idt 0).bind fun typeT =>
    (readByte ids 0).bind fun typeS =>
      if typeS ≠ typeT then compareTypes typeT typeS (identOf idt) (identOf ids)
      else
        (readByte idt 1).bind fun protoT =>
          (readByte ids 1).bind fun protoS =>
            if protoS ≠ protoT then some (.returns 1)
            else compareData eayCmpAsn1dn typeT (identOf idt) (identOf ids)

/-- Without an identity there is nothing to compare. -/
def ipsecdoiChkcmpids (idt ids : Option Buf) (exact_ : Bool) : Option ℤ :=
  match idt, ids with
  | some idt, some ids => (compareIds eayCmpAsn1dn idt ids).map Outcome.ret
  | _, _ => some (if exact_ then -1 else 0)

end

/-! ### The log -/

def BUFLEN : ℤ := 512

/-- `len = id->l - sizeof(*id_b)`, an `int`. -/
def dataLen (l : ℕ) : ℤ := ((l : ℤ) - ID_B_LEN).bmod (2 ^ 32)

/-- An `int` handed over as a `size_t`. -/
def asSize (len : ℤ) : ℕ := (len % 2 ^ 64).toNat

def scopeRead (id : Buf) : List (ℕ × ℕ) := if linkLocalAt id then [(24, 4)] else []

/-- The pieces of an identity that `ipsecdoi_id2str` reads, by place and length. -/
def id2strReads (id : Buf) : List (ℕ × ℕ) :=
  let type := (byteAt id 0).toNat
  (0, 1) ::
    if type = IPSECDOI_ID_IPV4_ADDR then [(ID_B_LEN, 4)]
    else if type = IPSECDOI_ID_IPV6_ADDR then (ID_B_LEN, 16) :: scopeRead id
    else if type = IPSECDOI_ID_IPV4_ADDR_SUBNET then
      (ID_B_LEN, 4) ::
        if id.length < 4 then []
        else (maskReads 4 (id.drop (ID_B_LEN + 4)) (ID_B_LEN + 4)).map fun off => (off, 1)
    else if type = IPSECDOI_ID_IPV6_ADDR_SUBNET then
      (ID_B_LEN, 16) :: (scopeRead id ++
        if id.length < 16 then []
        else (maskReads 16 (id.drop (ID_B_LEN + 16)) (ID_B_LEN + 16)).map fun off => (off, 1))
    else if type = IPSECDOI_ID_IPV4_ADDR_RANGE then [(ID_B_LEN, 4), (ID_B_LEN + 4, 4)]
    else if type = IPSECDOI_ID_IPV6_ADDR_RANGE then
      (ID_B_LEN, 16) :: (scopeRead id ++ (ID_B_LEN + 16, 16) :: scopeRead (id.drop 16))
    else if type = IPSECDOI_ID_FQDN ∨ type = IPSECDOI_ID_USER_FQDN then
      [(ID_B_LEN, asSize (min (dataLen id.length) BUFLEN))]
    else if type = IPSECDOI_ID_DER_ASN1_DN ∨ type = IPSECDOI_ID_DER_ASN1_GN then
      [(ID_B_LEN, asSize (dataLen id.length))]
    else []

/-- All reads of `ipsecdoi_id2str` are inside. -/
def Printable (id : Buf) : Prop := ∀ read ∈ id2strReads id, read.1 + read.2 ≤ id.length

instance (id : Buf) : Decidable (Printable id) := by
  unfold Printable
  infer_instance

/-! ### Well formed identities -/

def typeOf (id : Buf) : ℕ := (byteAt id 0).toNat

def protoOf (id : Buf) : ℕ := (byteAt id 1).toNat

def dataOf (id : Buf) : Buf := id.drop ID_B_LEN

/-- The size of the data of an address, a subnet or a range. -/
def fixedLen (type : ℕ) : Option ℕ :=
  if type = IPSECDOI_ID_IPV4_ADDR then some 4
  else if type = IPSECDOI_ID_IPV4_ADDR_SUBNET ∨ type = IPSECDOI_ID_IPV4_ADDR_RANGE then some 8
  else if type = IPSECDOI_ID_IPV6_ADDR then some 16
  else if type = IPSECDOI_ID_IPV6_ADDR_SUBNET ∨ type = IPSECDOI_ID_IPV6_ADDR_RANGE then some 32
  else none

/-- The types compared byte by byte at any length. -/
def IsName (type : ℕ) : Prop :=
  type = IPSECDOI_ID_FQDN ∨ type = IPSECDOI_ID_USER_FQDN ∨ type = IPSECDOI_ID_KEY_ID

def IsAsn1 (type : ℕ) : Prop := type = IPSECDOI_ID_DER_ASN1_DN ∨ type = IPSECDOI_ID_DER_ASN1_GN

instance (type : ℕ) : Decidable (IsName type) := by
  unfold IsName
  infer_instance

instance (type : ℕ) : Decidable (IsAsn1 type) := by
  unfold IsAsn1
  infer_instance

/-- An identity of a supported type whose data has the size of its type. -/
structure WellFormed (id : Buf) : Prop where
  header : ID_B_LEN ≤ id.length
  supported : IsAsn1 (typeOf id) ∨ IsName (typeOf id) ∨ (fixedLen (typeOf id)).isSome
  sized : ∀ n, fixedLen (typeOf id) = some n → (dataOf id).length = n

/-- The type of an identity once an address is its own subnet. -/
def subnetType (type : ℕ) : ℕ :=
  if type = IPSECDOI_ID_IPV4_ADDR then IPSECDOI_ID_IPV4_ADDR_SUBNET
  else if type = IPSECDOI_ID_IPV6_ADDR then IPSECDOI_ID_IPV6_ADDR_SUBNET
  else type

def subnetData (id : Buf) : Buf :=
  if typeOf id = IPSECDOI_ID_IPV4_ADDR then dataOf id ++ List.replicate 4 255
  else if typeOf id = IPSECDOI_ID_IPV6_ADDR then dataOf id ++ List.replicate 16 255
  else dataOf id

section
variable (eayCmpAsn1dn : Buf → Buf → ℤ)

/-- One type and the same data, an address being its subnet with the full mask. -/
def SameData (a b : Buf) : Prop :=
  subnetType (typeOf a) = subnetType (typeOf b) ∧
    if IsAsn1 (typeOf a) then eayCmpAsn1dn (dataOf a) (dataOf b) = 0 else subnetData a = subnetData b

def SameId (a b : Buf) : Prop := protoOf a = protoOf b ∧ SameData eayCmpAsn1dn a b

variable {eayCmpAsn1dn} {a b c : Buf}

theorem identLen_of_le {l : ℕ} (h : ID_B_LEN ≤ l) : identLen l = l - ID_B_LEN := if_pos h

theorem WellFormed.ident_l (h : WellFormed a) : (identOf a).l = (dataOf a).length := by
  change identLen a.length = (a.drop ID_B_LEN).length
  rw [identLen_of_le h.header, List.length_drop]

theorem WellFormed.read_type (h : WellFormed a) : readByte a 0 = some (typeOf a) := by
  have hheader := h.header
  unfold ID_B_LEN at hheader
  exact if_pos (by omega)

theorem WellFormed.read_proto (h : WellFormed a) : readByte a 1 = some (protoOf a) := by
  have hheader := h.header
  unfold ID_B_LEN at hheader
  exact if_pos (by omega)

theorem memcmp_all {x y : Buf} (h : x.length = y.length) :
    memcmp x y x.length = some (if x = y then 0 else 1) := by
  unfold memcmp
  rw [if_pos ⟨le_refl _, h.le⟩, List.take_length, h, List.take_length]

/-- What a comparison of data yields: 0 exactly where the two are the same. -/
def Tells (outcome : Option Outcome) (same : Prop) : Prop :=
  ∃ result, outcome = some (.cmpidResult result) ∧ (result = 0 ↔ same)

theorem matchData_tells (ha : WellFormed a) (hb : WellFormed b) :
    Tells (matchData (identOf a) (identOf b)) (dataOf a = dataOf b) := by
  unfold matchData
  rw [ha.ident_l, hb.ident_l]
  by_cases hlength : (dataOf a).length = (dataOf b).length
  · rw [if_pos hlength]
    change Tells ((memcmp (dataOf a) (dataOf b) (dataOf a).length).map .cmpidResult) _
    rw [memcmp_all hlength]
    refine ⟨_, rfl, ?_⟩
    by_cases hsame : dataOf a = dataOf b
    · simp [hsame]
    · simp [hsame]
  · rw [if_neg hlength]
    refine ⟨1, rfl, ?_⟩
    constructor
    · intro h
      cases h
    · intro h
      exact absurd (congrArg List.length h) hlength

theorem sized_tells {n : ℕ} (ha : WellFormed a) (hb : WellFormed b) (hna : (dataOf a).length = n)
    (hnb : (dataOf b).length = n) :
    Tells (sized n (identOf a) (identOf b)) (dataOf a = dataOf b) := by
  unfold sized
  rw [if_neg]
  · exact matchData_tells ha hb
  · rw [ha.ident_l, hb.ident_l]
    omega

/-- A subnet of full mask is the address in front of the mask. -/
theorem subnetisaddr_tells {n : ℕ} {subnet address : Buf} (hs : WellFormed subnet)
    (ha : WellFormed address) (hns : (dataOf subnet).length = n * 2)
    (hna : (dataOf address).length = n) :
    ∃ result, subnetisaddr n (identOf subnet) (identOf address) = some result ∧
      (result = 0 ↔ dataOf subnet = dataOf address ++ List.replicate n 255) := by
  have hsplit : dataOf subnet = (dataOf subnet).take n ++ (dataOf subnet).drop n :=
    (List.take_append_drop n _).symm
  have htake : ((dataOf subnet).take n).length = n := by
    rw [List.length_take]
    omega
  have hdrop : ((dataOf subnet).drop n).length = n := by
    rw [List.length_drop]
    omega
  have hsame : dataOf subnet = dataOf address ++ List.replicate n 255 ↔
      (dataOf subnet).take n = dataOf address ∧ (dataOf subnet).drop n = List.replicate n 255 := by
    constructor
    · intro h
      rw [h]
      exact ⟨List.take_left' hna, List.drop_left' hna⟩
    · intro h
      rw [hsplit, h.1, h.2]
  unfold subnetisaddr
  rw [ha.ident_l, hs.ident_l, if_neg (not_not.mpr hna), if_neg (not_not.mpr hns), hsame]
  change ∃ result, ((memcmp ((dataOf subnet).drop n) (List.replicate n 255) n).bind fun mask =>
    if mask ≠ 0 then some 1 else memcmp (dataOf subnet) (dataOf address) (dataOf address).length) =
      some result ∧ _
  have hmask : memcmp ((dataOf subnet).drop n) (List.replicate n 255) n =
      some (if (dataOf subnet).drop n = List.replicate n 255 then 0 else 1) := by
    have hall := memcmp_all (x := (dataOf subnet).drop n) (y := List.replicate n 255) (by simp [hdrop])
    rwa [hdrop] at hall
  have haddr : memcmp (dataOf subnet) (dataOf address) (dataOf address).length =
      some (if (dataOf subnet).take n = dataOf address then 0 else 1) := by
    unfold memcmp
    rw [hna, if_pos ⟨by omega, le_refl n⟩]
    rw [List.take_of_length_le hna.le]
  rw [hmask, haddr, Option.bind_some]
  by_cases hfull : (dataOf subnet).drop n = List.replicate n 255
  · rw [if_pos hfull, if_neg (not_not.mpr rfl)]
    refine ⟨_, rfl, ?_⟩
    by_cases heq : (dataOf subnet).take n = dataOf address
    · simp [heq, hfull]
    · simp [heq]
  · rw [if_neg hfull, if_pos one_ne_zero]
    refine ⟨1, rfl, ?_⟩
    simp [hfull]

theorem Tells.of_iff {outcome : Option Outcome} {same same' : Prop} (h : Tells outcome same)
    (hiff : same ↔ same') : Tells outcome same' := by
  obtain ⟨result, houtcome, hresult⟩ := h
  exact ⟨result, houtcome, hresult.trans hiff⟩

theorem subnet_tells {n : ℕ} {subnet address : Buf} (hs : WellFormed subnet)
    (ha : WellFormed address) (hns : (dataOf subnet).length = n * 2)
    (hna : (dataOf address).length = n) :
    Tells ((subnetisaddr n (identOf subnet) (identOf address)).map .cmpidResult)
      (dataOf subnet = dataOf address ++ List.replicate n 255) := by
  obtain ⟨result, hresult, hiff⟩ := subnetisaddr_tells hs ha hns hna
  rw [hresult]
  exact ⟨result, rfl, hiff⟩

/-- An address and its family's subnet. -/
def AddressAndSubnet (typeT typeS : ℕ) : Prop :=
  (typeT = IPSECDOI_ID_IPV4_ADDR ∧ typeS = IPSECDOI_ID_IPV4_ADDR_SUBNET) ∨
    (typeT = IPSECDOI_ID_IPV6_ADDR ∧ typeS = IPSECDOI_ID_IPV6_ADDR_SUBNET)

theorem types_of_subnetType (h : subnetType (typeOf a) = subnetType (typeOf b))
    (hne : typeOf a ≠ typeOf b) :
    AddressAndSubnet (typeOf a) (typeOf b) ∨ AddressAndSubnet (typeOf b) (typeOf a) := by
  unfold subnetType IPSECDOI_ID_IPV4_ADDR IPSECDOI_ID_IPV4_ADDR_SUBNET IPSECDOI_ID_IPV6_ADDR
    IPSECDOI_ID_IPV6_ADDR_SUBNET at h
  unfold AddressAndSubnet IPSECDOI_ID_IPV4_ADDR IPSECDOI_ID_IPV4_ADDR_SUBNET
    IPSECDOI_ID_IPV6_ADDR IPSECDOI_ID_IPV6_ADDR_SUBNET
  split_ifs at h <;> omega

theorem compareTypes_tells (eayCmpAsn1dn : Buf → Buf → ℤ) (ha : WellFormed a) (hb : WellFormed b)
    (hpair : AddressAndSubnet (typeOf a) (typeOf b)) :
    Tells (compareTypes (typeOf a) (typeOf b) (identOf a) (identOf b))
        (SameData eayCmpAsn1dn a b) ∧
      Tells (compareTypes (typeOf b) (typeOf a) (identOf b) (identOf a))
        (SameData eayCmpAsn1dn a b) := by
  have hsizeA := ha.sized
  have hsizeB := hb.sized
  cases hpair with
  | inl h4 =>
    obtain ⟨hta, htb⟩ := h4
    have hsame : dataOf b = dataOf a ++ List.replicate 4 255 ↔ SameData eayCmpAsn1dn a b := by
      unfold SameData subnetData
      rw [hta, htb, if_neg (by decide), if_pos rfl, if_neg (by decide), if_neg (by decide)]
      exact ⟨fun h => ⟨rfl, h.symm⟩, fun h => h.2.symm⟩
    rw [hta] at hsizeA ⊢
    rw [htb] at hsizeB ⊢
    have htells := (subnet_tells hb ha (hsizeB 8 rfl) (hsizeA 4 rfl)).of_iff hsame
    exact ⟨htells, htells⟩
  | inr h6 =>
    obtain ⟨hta, htb⟩ := h6
    have hsame : dataOf b = dataOf a ++ List.replicate 16 255 ↔ SameData eayCmpAsn1dn a b := by
      unfold SameData subnetData
      rw [hta, htb, if_neg (by decide), if_neg (by decide), if_pos rfl, if_neg (by decide),
        if_neg (by decide)]
      exact ⟨fun h => ⟨rfl, h.symm⟩, fun h => h.2.symm⟩
    rw [hta] at hsizeA ⊢
    rw [htb] at hsizeB ⊢
    have htells := (subnet_tells hb ha (hsizeB 32 rfl) (hsizeA 16 rfl)).of_iff hsame
    exact ⟨htells, htells⟩

theorem isAsn1_of_subnetType (h : subnetType (typeOf a) = subnetType (typeOf b)) :
    IsAsn1 (typeOf a) ↔ IsAsn1 (typeOf b) := by
  unfold subnetType IPSECDOI_ID_IPV4_ADDR IPSECDOI_ID_IPV4_ADDR_SUBNET IPSECDOI_ID_IPV6_ADDR
    IPSECDOI_ID_IPV6_ADDR_SUBNET at h
  unfold IsAsn1 IPSECDOI_ID_DER_ASN1_DN IPSECDOI_ID_DER_ASN1_GN
  split_ifs at h <;> omega

theorem SameData.symm (hdn : Equivalence fun x y => eayCmpAsn1dn x y = 0)
    (h : SameData eayCmpAsn1dn a b) : SameData eayCmpAsn1dn b a := by
  refine ⟨h.1.symm, ?_⟩
  have hdata := h.2
  simp only [isAsn1_of_subnetType h.1] at hdata
  split_ifs at hdata ⊢ with hasn1
  · exact hdn.symm hdata
  · exact hdata.symm

theorem SameData.trans (hdn : Equivalence fun x y => eayCmpAsn1dn x y = 0)
    (h : SameData eayCmpAsn1dn a b) (h' : SameData eayCmpAsn1dn b c) :
    SameData eayCmpAsn1dn a c := by
  refine ⟨h.1.trans h'.1, ?_⟩
  have hdata := h.2
  have hdata' := h'.2
  simp only [← isAsn1_of_subnetType h.1] at hdata'
  split_ifs at hdata hdata' ⊢ with hasn1
  · exact hdn.trans hdata hdata'
  · exact hdata.trans hdata'

/-- Types that are no pair of an address and a subnet are different. -/
theorem compareTypes_of_none {typeT typeS : ℕ} (h : ¬ AddressAndSubnet typeT typeS)
    (h' : ¬ AddressAndSubnet typeS typeT) (identT identS : Vchar) :
    compareTypes typeT typeS identT identS = some (.returns 1) := by
  unfold AddressAndSubnet at h h'
  unfold compareTypes
  rw [if_neg, if_neg, if_neg, if_neg] <;> tauto

theorem subnetData_eq_iff (h : typeOf a = typeOf b) : subnetData a = subnetData b ↔ dataOf a = dataOf b := by
  unfold subnetData
  rw [h]
  split_ifs
  · exact List.append_left_inj _
  · exact List.append_left_inj _
  · exact Iff.rfl

theorem compareData_tells (ha : WellFormed a) (hb : WellFormed b) (htype : typeOf a = typeOf b) :
    Tells (compareData eayCmpAsn1dn (typeOf a) (identOf a) (identOf b))
      (SameData eayCmpAsn1dn a b) := by
  unfold SameData
  rw [subnetData_eq_iff htype, htype]
  have hsizeA := ha.sized
  have hsizeB := hb.sized
  rw [htype] at hsizeA
  unfold compareData
  by_cases hdn : IsAsn1 (typeOf b)
  · have hasn1 : typeOf b = IPSECDOI_ID_DER_ASN1_DN ∨ typeOf b = IPSECDOI_ID_DER_ASN1_GN := hdn
    rw [if_pos hasn1, if_pos hdn]
    unfold cmpAsn1dn
    rw [ha.ident_l, hb.ident_l, if_pos ⟨le_refl _, le_refl _⟩]
    refine ⟨_, rfl, ?_⟩
    change eayCmpAsn1dn ((dataOf a).take (dataOf a).length) ((dataOf b).take (dataOf b).length) = 0 ↔ _
    rw [List.take_length, List.take_length]
    simp
  · have hasn1 : ¬ (typeOf b = IPSECDOI_ID_DER_ASN1_DN ∨ typeOf b = IPSECDOI_ID_DER_ASN1_GN) := hdn
    rw [if_neg hasn1, if_neg hdn]
    simp only [true_and]
    have hsupported := hb.supported
    unfold fixedLen at hsizeA hsizeB hsupported
    split_ifs with h4 h4s h6 h6s hname
    · simp only [if_pos h4] at hsizeA hsizeB
      exact sized_tells ha hb (hsizeA 4 rfl) (hsizeB 4 rfl)
    · simp only [if_neg h4, if_pos h4s] at hsizeA hsizeB
      exact sized_tells ha hb (hsizeA 8 rfl) (hsizeB 8 rfl)
    · simp only [if_neg h4, if_neg h4s, if_pos h6] at hsizeA hsizeB
      exact sized_tells ha hb (hsizeA 16 rfl) (hsizeB 16 rfl)
    · simp only [if_neg h4, if_neg h4s, if_neg h6, if_pos h6s] at hsizeA hsizeB
      exact sized_tells ha hb (hsizeA 32 rfl) (hsizeB 32 rfl)
    · exact matchData_tells ha hb
    · simp only [if_neg h4, if_neg h4s, if_neg h6, if_neg h6s] at hsupported
      simp [hdn, IsName, hname] at hsupported

/-- The identities that a comparison accepts: of two of one type it also wants the protocol. -/
theorem compareIds_tells (hdn : Equivalence fun x y => eayCmpAsn1dn x y = 0) (ha : WellFormed a)
    (hb : WellFormed b) :
    ∃ outcome, compareIds eayCmpAsn1dn a b = some outcome ∧
      (outcome.ret = 0 ↔
        SameData eayCmpAsn1dn a b ∧ (typeOf a = typeOf b → protoOf a = protoOf b)) := by
  have hret : ∀ {outcome : Option Outcome} {same : Prop}, Tells outcome same →
      ∃ o, outcome = some o ∧ (o.ret = 0 ↔ same) := by
    rintro _ same ⟨result, rfl, hiff⟩
    refine ⟨_, rfl, ?_⟩
    rw [← hiff]
    change (if result = 0 then (0 : ℤ) else 1) = 0 ↔ result = 0
    split_ifs with hresult <;> simp [hresult]
  unfold compareIds
  rw [ha.read_type, hb.read_type, Option.bind_some, Option.bind_some, ha.read_proto, hb.read_proto]
  by_cases htype : typeOf a = typeOf b
  · rw [if_neg (not_not.mpr htype.symm), Option.bind_some, Option.bind_some]
    by_cases hproto : protoOf a = protoOf b
    · rw [if_neg (not_not.mpr hproto.symm)]
      obtain ⟨o, ho, hiff⟩ := hret (compareData_tells ha hb htype)
      exact ⟨o, ho, hiff.trans (by simp [hproto])⟩
    · rw [if_pos (Ne.symm hproto)]
      exact ⟨_, rfl, by simp [Outcome.ret, htype, hproto]⟩
  · rw [if_pos (Ne.symm htype)]
    have hdrop : (SameData eayCmpAsn1dn a b ∧ (typeOf a = typeOf b → protoOf a = protoOf b)) ↔
        SameData eayCmpAsn1dn a b := by simp [htype]
    rw [hdrop]
    by_cases hab : AddressAndSubnet (typeOf a) (typeOf b)
    · exact hret (compareTypes_tells eayCmpAsn1dn ha hb hab).1
    · by_cases hba : AddressAndSubnet (typeOf b) (typeOf a)
      · obtain ⟨o, ho, hiff⟩ := hret (compareTypes_tells eayCmpAsn1dn hb ha hba).2
        exact ⟨o, ho, hiff.trans ⟨fun h => h.symm hdn, fun h => h.symm hdn⟩⟩
      · rw [compareTypes_of_none hab hba]
        refine ⟨_, rfl, ?_⟩
        have hnot : ¬ SameData eayCmpAsn1dn a b := by
          intro h
          exact (types_of_subnetType h.1 htype).elim hab hba
        simp [Outcome.ret, hnot]

end

/-! ### What is read -/

section
variable (eayCmpAsn1dn : Buf → Buf → ℤ)

/-- A call reads nothing outside the two identities: it does not do so itself, and where it
    logs them, at the level of debugging, `ipsecdoi_id2str` does not. -/
def StaysInside (debug : Bool) (idt ids : Option Buf) : Prop :=
  match idt, ids with
  | some idt, some ids =>
    match compareIds eayCmpAsn1dn idt ids with
    | none => False
    | some (.returns _) => True
    | some (.cmpidResult _) => debug = true → Printable idt ∧ Printable ids
  | _, _ => True

/-- Long enough for what a comparison reads of the two itself. -/
def Readable (idt ids : Buf) : Prop :=
  1 ≤ idt.length ∧ 1 ≤ ids.length ∧
    (typeOf idt = typeOf ids → 2 ≤ idt.length ∧ 2 ≤ ids.length ∧
      (protoOf idt = protoOf ids →
        (IsAsn1 (typeOf idt) → ID_B_LEN ≤ idt.length ∧ ID_B_LEN ≤ ids.length) ∧
        (IsName (typeOf idt) → idt.length = ids.length → ID_B_LEN ≤ idt.length)))

/-- The comparisons that log both identities. -/
def Logs (idt ids : Buf) : Prop :=
  if typeOf idt = typeOf ids then
    protoOf idt = protoOf ids ∧
      (IsAsn1 (typeOf idt) ∨ IsName (typeOf idt) ∨
        ∃ n, fixedLen (typeOf idt) = some n ∧ idt.length = ID_B_LEN + n ∧ ids.length = ID_B_LEN + n)
  else AddressAndSubnet (typeOf idt) (typeOf ids) ∨ AddressAndSubnet (typeOf ids) (typeOf idt)

/-- Outside exactly where `inside` fails, at `cmpid_result` exactly where `logs` holds. -/
structure Ends (outcome : Option Outcome) (inside logs : Prop) : Prop where
  outside : ¬ inside → outcome = none
  logged : inside → logs → ∃ result, outcome = some (.cmpidResult result)
  silent : inside → ¬ logs → ∃ ret, outcome = some (.returns ret)

variable {eayCmpAsn1dn} {a b : Buf}

theorem Ends.of_iff {outcome : Option Outcome} {inside inside' logs logs' : Prop}
    (h : Ends outcome inside logs) (hinside : inside' ↔ inside)
    (hlogs : inside' → (logs' ↔ logs)) : Ends outcome inside' logs' where
  outside hnot := h.outside (fun hin => hnot (hinside.mpr hin))
  logged hin hlog := h.logged (hinside.mp hin) ((hlogs hin).mp hlog)
  silent hin hnot := h.silent (hinside.mp hin) (fun hlog => hnot ((hlogs hin).mpr hlog))

theorem ends_returns (ret : ℤ) : Ends (some (.returns ret)) True False where
  outside h := absurd trivial h
  logged _ h := h.elim
  silent _ _ := ⟨ret, rfl⟩

theorem ends_result {outcome : Option ℤ} {inside : Prop} (hin : inside → outcome.isSome)
    (hout : ¬ inside → outcome = none) : Ends (outcome.map .cmpidResult) inside True where
  outside h := by rw [hout h]; rfl
  logged h _ := by
    obtain ⟨result, hresult⟩ := Option.isSome_iff_exists.mp (hin h)
    exact ⟨result, by rw [hresult]; rfl⟩
  silent _ h := absurd trivial h

theorem length_ident (h : ID_B_LEN ≤ a.length) : (identOf a).v.length = (identOf a).l := by
  change (a.drop ID_B_LEN).length = identLen a.length
  rw [List.length_drop, identLen_of_le h]

/-- A length that wraps is longer than anything in memory. -/
theorem ident_wraps (h : a.length < ID_B_LEN) :
    (identOf a).l = 2 ^ 64 + a.length - ID_B_LEN ∧ (identOf a).v.length = 0 := by
  constructor
  · exact if_neg (by omega)
  · change (a.drop ID_B_LEN).length = 0
    rw [List.length_drop]
    omega

theorem ident_small {n : ℕ} (hn : n ≤ 32) : (identOf a).l = n ↔ a.length = ID_B_LEN + n := by
  change identLen a.length = n ↔ _
  unfold identLen ID_B_LEN
  split <;> omega

theorem ident_l_inj (ha : a.length < 2 ^ 64) (hb : b.length < 2 ^ 64) :
    (identOf a).l = (identOf b).l ↔ a.length = b.length := by
  change identLen a.length = identLen b.length ↔ _
  unfold identLen ID_B_LEN
  split <;> split <;> omega

theorem memcmp_isSome {x y : Buf} {n : ℕ} (hx : n ≤ x.length) (hy : n ≤ y.length) :
    (memcmp x y n).isSome := by
  unfold memcmp
  rw [if_pos ⟨hx, hy⟩]
  rfl

theorem matchData_ends (ha : a.length < 2 ^ 64) (hb : b.length < 2 ^ 64) :
    Ends (matchData (identOf a) (identOf b)) (a.length = b.length → ID_B_LEN ≤ a.length) True := by
  unfold matchData
  by_cases hlength : a.length = b.length
  · rw [if_pos ((ident_l_inj ha hb).mpr hlength)]
    apply ends_result
    · intro hin
      have hheader := hin hlength
      apply memcmp_isSome
      · rw [length_ident hheader]
      · rw [length_ident (hlength ▸ hheader), (ident_l_inj ha hb).mpr hlength]
    · intro hnot
      have hshort : a.length < ID_B_LEN := by
        by_contra hge
        exact hnot (fun _ => not_lt.mp hge)
      obtain ⟨hl, hv⟩ := ident_wraps hshort
      apply if_neg
      rw [hl, hv]
      unfold ID_B_LEN
      omega
  · rw [if_neg (fun h => hlength ((ident_l_inj ha hb).mp h))]
    have hends : Ends (Option.map Outcome.cmpidResult (some 1)) True True :=
      ends_result (fun _ => rfl) (fun h => absurd trivial h)
    exact hends.of_iff
      (by simp [hlength]) (fun _ => Iff.rfl)

theorem sized_ends {n : ℕ} (hn : n ≤ 32) :
    Ends (sized n (identOf a) (identOf b)) True
      (a.length = ID_B_LEN + n ∧ b.length = ID_B_LEN + n) := by
  unfold sized
  have hla := ident_small (a := a) hn
  have hlb := ident_small (a := b) hn
  by_cases hboth : a.length = ID_B_LEN + n ∧ b.length = ID_B_LEN + n
  · rw [if_neg (by omega)]
    have hlt : ∀ c : Buf, c.length = ID_B_LEN + n → c.length < 2 ^ 64 := by
      intro c hc
      unfold ID_B_LEN at hc
      omega
    refine (matchData_ends (hlt a hboth.1) (hlt b hboth.2)).of_iff ?_ ?_
    · exact ⟨fun _ _ => by omega, fun _ => trivial⟩
    · exact fun _ => ⟨fun _ => trivial, fun _ => hboth⟩
  · rw [if_pos (by omega)]
    exact (ends_returns (-1)).of_iff Iff.rfl (fun _ => by simp [hboth])

theorem cmpAsn1dn_ends (ha : a.length < 2 ^ 64) (hb : b.length < 2 ^ 64) :
    Ends ((cmpAsn1dn eayCmpAsn1dn (identOf a) (identOf b)).map .cmpidResult)
      (ID_B_LEN ≤ a.length ∧ ID_B_LEN ≤ b.length) True := by
  apply ends_result
  · intro hin
    unfold cmpAsn1dn
    rw [if_pos ⟨(length_ident hin.1).ge, (length_ident hin.2).ge⟩]
    rfl
  · intro hnot
    apply if_neg
    intro hfit
    apply hnot
    constructor
    · by_contra hshort
      obtain ⟨hl, hv⟩ := ident_wraps (not_le.mp hshort)
      unfold ID_B_LEN at hl
      omega
    · by_contra hshort
      obtain ⟨hl, hv⟩ := ident_wraps (not_le.mp hshort)
      unfold ID_B_LEN at hl
      omega

theorem subnetisaddr_ends {n : ℕ} (hn : n * 2 ≤ 32) :
    Ends ((subnetisaddr n (identOf a) (identOf b)).map .cmpidResult) True True := by
  apply ends_result
  · intro _
    unfold subnetisaddr
    split_ifs with hb ha
    · rfl
    · rfl
    · have hla : (identOf a).l = n * 2 := not_not.mp ha
      have hlb : (identOf b).l = n := not_not.mp hb
      have hlengthA := (ident_small hn).mp hla
      have hlengthB := (ident_small (by omega)).mp hlb
      have hva := length_ident (a := a) (by omega)
      have hvb := length_ident (a := b) (by omega)
      have hmask : (memcmp ((identOf a).v.drop n) (List.replicate n 255) n).isSome := by
        apply memcmp_isSome
        · rw [List.length_drop]
          omega
        · simp
      obtain ⟨mask, hmask⟩ := Option.isSome_iff_exists.mp hmask
      rw [hmask, Option.bind_some]
      split_ifs
      · rfl
      · apply memcmp_isSome <;> omega
  · intro hnot
    exact absurd trivial hnot

theorem compareTypes_ends (idt ids : Buf) (typeT typeS : ℕ) :
    Ends (compareTypes typeT typeS (identOf idt) (identOf ids)) True
      (AddressAndSubnet typeT typeS ∨ AddressAndSubnet typeS typeT) := by
  by_cases hpair : AddressAndSubnet typeT typeS ∨ AddressAndSubnet typeS typeT
  · have hlogs : True → ((AddressAndSubnet typeT typeS ∨ AddressAndSubnet typeS typeT) ↔ True) :=
      fun _ => ⟨fun _ => trivial, fun _ => hpair⟩
    have hdiffer : (IPSECDOI_ID_IPV4_ADDR ≠ IPSECDOI_ID_IPV6_ADDR ∧
        IPSECDOI_ID_IPV4_ADDR ≠ IPSECDOI_ID_IPV4_ADDR_SUBNET ∧
        IPSECDOI_ID_IPV6_ADDR ≠ IPSECDOI_ID_IPV6_ADDR_SUBNET ∧
        IPSECDOI_ID_IPV4_ADDR ≠ IPSECDOI_ID_IPV6_ADDR_SUBNET ∧
        IPSECDOI_ID_IPV6_ADDR ≠ IPSECDOI_ID_IPV4_ADDR_SUBNET) := by decide
    unfold compareTypes
    split_ifs with h1 h2 h3 h4
    · exact (subnetisaddr_ends (by decide)).of_iff Iff.rfl hlogs
    · exact (subnetisaddr_ends (by decide)).of_iff Iff.rfl hlogs
    · exact (subnetisaddr_ends (by decide)).of_iff Iff.rfl hlogs
    · exact (subnetisaddr_ends (by decide)).of_iff Iff.rfl hlogs
    · unfold AddressAndSubnet at hpair
      tauto
  · have hnone := compareTypes_of_none (fun h => hpair (Or.inl h)) (fun h => hpair (Or.inr h))
      (identOf idt) (identOf ids)
    rw [hnone]
    exact (ends_returns 1).of_iff Iff.rfl (fun _ => by simp [hpair])

theorem compareData_ends (ha : a.length < 2 ^ 64) (hb : b.length < 2 ^ 64) (type : ℕ) :
    Ends (compareData eayCmpAsn1dn type (identOf a) (identOf b))
      ((IsAsn1 type → ID_B_LEN ≤ a.length ∧ ID_B_LEN ≤ b.length) ∧
        (IsName type → a.length = b.length → ID_B_LEN ≤ a.length))
      (IsAsn1 type ∨ IsName type ∨
        ∃ n, fixedLen type = some n ∧ a.length = ID_B_LEN + n ∧ b.length = ID_B_LEN + n) := by
  have hdisjoint : IsAsn1 type → ¬ IsName type := by
    unfold IsAsn1 IsName IPSECDOI_ID_DER_ASN1_DN IPSECDOI_ID_DER_ASN1_GN IPSECDOI_ID_FQDN
      IPSECDOI_ID_USER_FQDN IPSECDOI_ID_KEY_ID
    omega
  have hname : IsName type → fixedLen type = none := by
    unfold IsName
    rintro (rfl | rfl | rfl) <;> rfl
  unfold compareData
  by_cases hasn1 : IsAsn1 type
  · have hasn1' : type = IPSECDOI_ID_DER_ASN1_DN ∨ type = IPSECDOI_ID_DER_ASN1_GN := hasn1
    rw [if_pos hasn1']
    refine (cmpAsn1dn_ends ha hb).of_iff ?_ ?_
    · simp [hasn1, hdisjoint hasn1]
    · simp [hasn1]
  · have hasn1' : ¬ (type = IPSECDOI_ID_DER_ASN1_DN ∨ type = IPSECDOI_ID_DER_ASN1_GN) := hasn1
    rw [if_neg hasn1']
    by_cases hn : IsName type
    · have hn' : type = IPSECDOI_ID_FQDN ∨ type = IPSECDOI_ID_USER_FQDN ∨
          type = IPSECDOI_ID_KEY_ID := hn
      have hfixed := hname hn
      unfold fixedLen at hfixed
      split_ifs at hfixed ⊢
      refine (matchData_ends ha hb).of_iff ?_ ?_
      · simp [hasn1, hn]
      · simp [hn]
    · have hn' : ¬ (type = IPSECDOI_ID_FQDN ∨ type = IPSECDOI_ID_USER_FQDN ∨
          type = IPSECDOI_ID_KEY_ID) := hn
      rw [if_neg hn']
      unfold fixedLen
      have hin : ((IsAsn1 type → ID_B_LEN ≤ a.length ∧ ID_B_LEN ≤ b.length) ∧
          (IsName type → a.length = b.length → ID_B_LEN ≤ a.length)) ↔ True := by
        simp [hasn1, hn]
      split_ifs with h4 h4s h6 h6s
      · exact (sized_ends (by decide)).of_iff hin (fun _ => by simp [hasn1, hn])
      · exact (sized_ends (by decide)).of_iff hin (fun _ => by simp [hasn1, hn])
      · exact (sized_ends (by decide)).of_iff hin (fun _ => by simp [hasn1, hn])
      · exact (sized_ends (by decide)).of_iff hin (fun _ => by simp [hasn1, hn])
      · exact (ends_returns (-1)).of_iff hin (fun _ => by simp [hasn1, hn])

theorem readByte_of_lt {i : ℕ} (h : i < a.length) : readByte a i = some (byteAt a i).toNat := if_pos h

theorem readByte_of_le {i : ℕ} (h : a.length ≤ i) : readByte a i = none := if_neg (not_lt.mpr h)

/-- Two identities that are too short for their type or protocol to be read. -/
theorem compareIds_short (h : a.length < 1 ∨ b.length < 1 ∨
    typeOf a = typeOf b ∧ (a.length < 2 ∨ b.length < 2)) : compareIds eayCmpAsn1dn a b = none := by
  unfold compareIds
  by_cases ha : a.length < 1
  · rw [readByte_of_le (by omega)]
    rfl
  · rw [readByte_of_lt (a := a) (by omega), Option.bind_some]
    by_cases hb : b.length < 1
    · rw [readByte_of_le (a := b) (by omega)]
      rfl
    · have htype : typeOf a = typeOf b := by tauto
      rw [readByte_of_lt (a := b) (by omega), Option.bind_some]
      change (if typeOf b ≠ typeOf a then _ else _) = none
      rw [if_neg (not_not.mpr htype.symm)]
      by_cases ha1 : a.length < 2
      · rw [readByte_of_le (by omega)]
        rfl
      · rw [readByte_of_lt (a := a) (by omega), Option.bind_some, readByte_of_le (by omega)]
        rfl

theorem compareIds_types (ha : 1 ≤ a.length) (hb : 1 ≤ b.length) (htype : typeOf a ≠ typeOf b) :
    compareIds eayCmpAsn1dn a b = compareTypes (typeOf a) (typeOf b) (identOf a) (identOf b) := by
  unfold compareIds
  rw [readByte_of_lt ha, readByte_of_lt hb, Option.bind_some, Option.bind_some]
  exact if_pos htype.symm

theorem compareIds_type (ha : 2 ≤ a.length) (hb : 2 ≤ b.length) (htype : typeOf a = typeOf b) :
    compareIds eayCmpAsn1dn a b = if protoOf b ≠ protoOf a then some (.returns 1)
      else compareData eayCmpAsn1dn (typeOf a) (identOf a) (identOf b) := by
  unfold compareIds
  rw [readByte_of_lt (a := a) (i := 0) (by omega), readByte_of_lt (a := b) (i := 0) (by omega),
    Option.bind_some, Option.bind_some, readByte_of_lt (a := a) (i := 1) (by omega),
    readByte_of_lt (a := b) (i := 1) (by omega), Option.bind_some, Option.bind_some]
  exact if_neg (not_not.mpr htype.symm)

theorem compareIds_ends (eayCmpAsn1dn : Buf → Buf → ℤ) (ha : a.length < 2 ^ 64) (hb : b.length < 2 ^ 64) :
    Ends (compareIds eayCmpAsn1dn a b) (Readable a b) (Logs a b) := by
  by_cases hshort : a.length < 1 ∨ b.length < 1 ∨ typeOf a = typeOf b ∧ (a.length < 2 ∨ b.length < 2)
  · have hnot : ¬ Readable a b := by
      rintro ⟨ha0, hb0, hrest⟩
      rcases hshort with h | h | ⟨htype, h⟩
      · omega
      · omega
      · have hlen := hrest htype
        omega
    exact ⟨fun _ => compareIds_short hshort, fun h => absurd h hnot, fun h => absurd h hnot⟩
  · have ha0 : 1 ≤ a.length := by omega
    have hb0 : 1 ≤ b.length := by omega
    by_cases htype : typeOf a = typeOf b
    · have ha1 : 2 ≤ a.length := by omega
      have hb1 : 2 ≤ b.length := by omega
      rw [compareIds_type ha1 hb1 htype]
      by_cases hproto : protoOf a = protoOf b
      · rw [if_neg (not_not.mpr hproto.symm)]
        refine (compareData_ends ha hb (typeOf a)).of_iff ?_ ?_
        · exact ⟨fun h => (h.2.2 htype).2.2 hproto, fun h => ⟨ha0, hb0, fun _ => ⟨ha1, hb1, fun _ => h⟩⟩⟩
        · intro _
          unfold Logs
          rw [if_pos htype]
          exact ⟨fun h => h.2, fun h => ⟨hproto, h⟩⟩
      · rw [if_pos (Ne.symm hproto)]
        refine (ends_returns 1).of_iff ?_ ?_
        · exact ⟨fun _ => trivial, fun _ => ⟨ha0, hb0, fun _ => ⟨ha1, hb1, fun h => absurd h hproto⟩⟩⟩
        · intro _
          unfold Logs
          rw [if_pos htype]
          simp [hproto]
    · rw [compareIds_types ha0 hb0 htype]
      refine (compareTypes_ends a b (typeOf a) (typeOf b)).of_iff ?_ ?_
      · exact ⟨fun _ => trivial, fun _ => ⟨ha0, hb0, fun h => absurd h htype⟩⟩
      · intro _
        unfold Logs
        rw [if_neg htype]

theorem readsInside_iff (ha : a.length < 2 ^ 64) (hb : b.length < 2 ^ 64) (debug : Bool) :
    StaysInside eayCmpAsn1dn debug (some a) (some b) ↔
      Readable a b ∧ (debug = true → Logs a b → Printable a ∧ Printable b) := by
  have hends := compareIds_ends eayCmpAsn1dn ha hb
  unfold StaysInside
  by_cases hin : Readable a b
  · by_cases hlogs : Logs a b
    · obtain ⟨result, hresult⟩ := hends.logged hin hlogs
      simp [hresult, hin, hlogs]
    · obtain ⟨ret, hret⟩ := hends.silent hin hlogs
      simp [hret, hin, hlogs]
  · simp [hends.outside hin, hin]

theorem chkcmpids_zero_iff (hdn : Equivalence fun x y => eayCmpAsn1dn x y = 0) (ha : WellFormed a)
    (hb : WellFormed b) (exact_ : Bool) :
    ipsecdoiChkcmpids eayCmpAsn1dn (some a) (some b) exact_ = some 0 ↔
      SameData eayCmpAsn1dn a b ∧ (typeOf a = typeOf b → protoOf a = protoOf b) := by
  obtain ⟨outcome, houtcome, hret⟩ := compareIds_tells hdn ha hb
  rw [← hret]
  simp [ipsecdoiChkcmpids, houtcome]

/-- The comparison tells two identities apart by protocol and data except that an address
    and its subnet of full mask are equal under every two protocols, which is also where it is
    not transitive. What it reads lies inside two identities that are long enough for it, and
    for the log. -/
theorem chkcmpids_iff (eayCmpAsn1dn : Buf → Buf → ℤ)
    (hdn : Equivalence fun x y => eayCmpAsn1dn x y = 0) :
    (∀ a b, WellFormed a → WellFormed b → ∀ exact_,
      ((ipsecdoiChkcmpids eayCmpAsn1dn (some a) (some b) exact_ = some 0 ↔
          SameId eayCmpAsn1dn a b) ↔
        ¬ (SameData eayCmpAsn1dn a b ∧ typeOf a ≠ typeOf b ∧ protoOf a ≠ protoOf b))) ∧
    (∀ a b, WellFormed a → WellFormed b → ∀ exact_,
      ipsecdoiChkcmpids eayCmpAsn1dn (some a) (some b) exact_ = some 0 →
        ipsecdoiChkcmpids eayCmpAsn1dn (some b) (some a) exact_ = some 0) ∧
    (∀ a b c, WellFormed a → WellFormed b → WellFormed c → ∀ exact_,
      ((ipsecdoiChkcmpids eayCmpAsn1dn (some a) (some b) exact_ = some 0 →
          ipsecdoiChkcmpids eayCmpAsn1dn (some b) (some c) exact_ = some 0 →
            ipsecdoiChkcmpids eayCmpAsn1dn (some a) (some c) exact_ = some 0) ↔
        ¬ (SameData eayCmpAsn1dn a b ∧ SameData eayCmpAsn1dn b c ∧ typeOf a = typeOf c ∧
          typeOf a ≠ typeOf b ∧ protoOf a ≠ protoOf c))) ∧
    ∀ a b : Buf, a.length < 2 ^ 64 → b.length < 2 ^ 64 → ∀ debug,
      (StaysInside eayCmpAsn1dn debug (some a) (some b) ↔
        Readable a b ∧ (debug = true → Logs a b → Printable a ∧ Printable b)) := by
  refine ⟨?_, ?_, ?_, ?_⟩
  · intro a b ha hb exact_
    rw [chkcmpids_zero_iff hdn ha hb]
    unfold SameId
    tauto
  · intro a b ha hb exact_ h
    rw [chkcmpids_zero_iff hdn ha hb] at h
    rw [chkcmpids_zero_iff hdn hb ha]
    exact ⟨h.1.symm hdn, fun htype => (h.2 htype.symm).symm⟩
  · intro a b c ha hb hc exact_
    rw [chkcmpids_zero_iff hdn ha hb, chkcmpids_zero_iff hdn hb hc, chkcmpids_zero_iff hdn ha hc]
    constructor
    · rintro htrans ⟨hab, hbc, hac, hne, hproto⟩
      have hbc' : typeOf b = typeOf c → protoOf b = protoOf c := fun h => absurd (hac.trans h.symm) hne
      have hlast := htrans ⟨hab, fun h => absurd h hne⟩ ⟨hbc, hbc'⟩
      exact hproto (hlast.2 hac)
    · intro hnot hab hbc
      refine ⟨hab.1.trans hdn hbc.1, fun hac => ?_⟩
      by_contra hproto
      by_cases htype : typeOf a = typeOf b
      · exact hproto ((hab.2 htype).trans (hbc.2 (htype.symm.trans hac)))
      · exact hnot ⟨hab.1, hbc.1, hac, htype, hproto⟩
  · intro a b ha hb debug
    exact readsInside_iff ha hb debug

end

/-! ### TCP and UDP to one host -/

def sameBytes (x y : Buf) : ℤ := if x = y then 0 else 1

theorem sameBytes_equivalence : Equivalence fun x y => sameBytes x y = 0 := by
  have hiff : ∀ x y : Buf, sameBytes x y = 0 ↔ x = y := by
    intro x y
    unfold sameBytes
    split_ifs with h <;> simp [h]
  simp only [hiff]
  exact eq_equivalence

/-- 10.0.0.1 as an address and as a subnet, for the protocol `proto`. -/
def hostAddress (proto : UInt8) : Buf := [1, proto, 0, 0, 10, 0, 0, 1]

def hostSubnet (proto : UInt8) : Buf := [4, proto, 0, 0, 10, 0, 0, 1, 255, 255, 255, 255]

theorem hostAddress_wellFormed (proto : UInt8) : WellFormed (hostAddress proto) where
  header := by simp [hostAddress, ID_B_LEN]
  supported := Or.inr (Or.inr rfl)
  sized n h := Option.some.inj h

theorem hostSubnet_wellFormed (proto : UInt8) : WellFormed (hostSubnet proto) where
  header := by simp [hostSubnet, ID_B_LEN]
  supported := Or.inr (Or.inr rfl)
  sized n h := Option.some.inj h

theorem chkcmpids_iff_host :
    (ipsecdoiChkcmpids sameBytes (some (hostAddress 6)) (some (hostSubnet 6)) true = some 0 ↔
        SameId sameBytes (hostAddress 6) (hostSubnet 6)) ∧
      (StaysInside sameBytes true (some (hostAddress 6)) (some (hostSubnet 6)) ↔
        Readable (hostAddress 6) (hostSubnet 6) ∧ (true = true → Logs (hostAddress 6) (hostSubnet 6) →
          Printable (hostAddress 6) ∧ Printable (hostSubnet 6))) :=
  ⟨((chkcmpids_iff sameBytes sameBytes_equivalence).1 _ _ (hostAddress_wellFormed 6)
      (hostSubnet_wellFormed 6) true).mpr (fun h => h.2.2 rfl),
    (chkcmpids_iff sameBytes sameBytes_equivalence).2.2.2 (hostAddress 6) (hostSubnet 6)
      (by simp [hostAddress]) (by simp [hostSubnet]) true⟩

/-- TCP to the host is equal to its subnet with UDP, which is equal to UDP to the host; two names
    of two bytes are compared outside. -/
theorem chkcmpids_protocols :
    (WellFormed (hostAddress 6) ∧ WellFormed (hostSubnet 17) ∧ WellFormed (hostAddress 17)) ∧
      ipsecdoiChkcmpids sameBytes (some (hostAddress 6)) (some (hostSubnet 17)) true = some 0 ∧
      ¬ SameId sameBytes (hostAddress 6) (hostSubnet 17) ∧
      ipsecdoiChkcmpids sameBytes (some (hostSubnet 17)) (some (hostAddress 17)) true = some 0 ∧
      ipsecdoiChkcmpids sameBytes (some (hostAddress 6)) (some (hostAddress 17)) true = some 1 ∧
      ¬ StaysInside sameBytes false (some [2, 0]) (some [2, 0]) :=
  ⟨⟨hostAddress_wellFormed 6, hostSubnet_wellFormed 17, hostAddress_wellFormed 17⟩, by decide +kernel,
    fun h => absurd h.1 (by decide), by decide +kernel, by decide +kernel, id⟩

end WanStack.Racoon.IdCompare
