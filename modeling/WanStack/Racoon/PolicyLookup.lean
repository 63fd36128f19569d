import WanStack.Racoon.Networks
import WanStack.Racoon.Quick

set_option autoImplicit false

/-!
# Policy lookup

`getsp_r` of `policy.c` with the two comparisons of policy indexes. `a` is the
index that is looked for, `b` the one of a policy. A process that exits is `none`.
-/
namespace WanStack.Racoon.PolicyLookup
open Networks
open Quick (IPSEC_ULPROTO_ANY)

def IPSEC_DIR_ANY : ℕ := 0

structure Policyindex where
  dir : ℕ
  src : Saddr
  dst : Saddr
  prefs : ℕ
  prefd : ℕ
  ulProto : ℕ
deriving DecidableEq

structure Secpolicy where
  spidx : Policyindex
  id : ℕ
deriving DecidableEq

/-- The value of a result of `cmpsaddr` in `sockmisc.h`. -/
def cmpsaddrValue : CmpSaddr → ℕ
  | .MATCH => 0
  | .WILDPORT_MATCH => 1
  | .WOP_MATCH => 2
  | .MISMATCH => 3

/-- `ss_family` is the same. -/
def sameFamily : Saddr → Saddr → Bool
  | .unspec, .unspec => true
  | .inet _ _, .inet _ _ => true
  | .inet6 _ _, .inet6 _ _ => true
  | .other family, .other family' => family = family'
  | _, _ => false

def cmpspidxstrict (a b : Policyindex) : ℕ :=
  if a.dir ≠ b.dir ∨ a.prefs ≠ b.prefs ∨ a.prefd ≠ b.prefd ∨ a.ulProto ≠ b.ulProto then 1
  else if cmpsaddr a.src.sockaddr b.src.sockaddr ≠ .MATCH then 1
  else if cmpsaddr a.dst.sockaddr b.dst.sockaddr ≠ .MATCH then 1
  else 0

/-- Whether two addresses differ by more than a port left open, under the mask of `l` bits. -/
def maskedMismatch (a b : Saddr) (l : ℕ) : Option Bool :=
  (maskSockaddr a l).bind fun sa1 =>
    (maskSockaddr b l).map fun sa2 =>
      cmpsaddrValue (cmpsaddr sa1.sockaddr sa2.sockaddr) > cmpsaddrValue .WILDPORT_MATCH

def cmpspidxwild (a b : Policyindex) : Option ℕ :=
  if ¬ (b.dir = IPSEC_DIR_ANY ∨ a.dir = b.dir) then some 1
  else if ¬ (b.ulProto = IPSEC_ULPROTO_ANY ∨ a.ulProto = b.ulProto) then some 1
  else if sameFamily a.src b.src = false then some 1
  else if sameFamily a.dst b.dst = false then some 1
  else
    (maskedMismatch a.src b.src b.prefs).bind fun mismatch =>
      if mismatch then some 1
      else
        (maskedMismatch a.dst b.dst b.prefd).map fun mismatch => if mismatch then 1 else 0

/-- The loop of `getsp_r` over the rest of `sptree`. -/
def getspLoop (spidx : Policyindex) : List Secpolicy → Option Secpolicy → Option (Option Secpolicy)
  | [], found => some found
  | p :: rest, found =>
    if cmpspidxstrict spidx p.spidx = 0 then some (some p)
    else if found ≠ none then getspLoop spidx rest found
    else
      match cmpspidxwild spidx p.spidx with
      | none => none
      | some result => getspLoop spidx rest (if result = 0 then some p else none)

def getspR (sptree : List Secpolicy) (spidx : Policyindex) : Option (Option Secpolicy) :=
  getspLoop spidx sptree none

/-! ### Policies that enclose, and policies that are accepted -/

def PortsFit (a b : ℕ) : Prop := a = b ∨ a = IPSEC_PORT_ANY ∨ b = IPSEC_PORT_ANY

/-- The direction and the protocol of the policy are those looked for or any. -/
def KindFits (a b : Policyindex) : Prop :=
  (b.dir = IPSEC_DIR_ANY ∨ a.dir = b.dir) ∧
    (b.ulProto = IPSEC_ULPROTO_ANY ∨ a.ulProto = b.ulProto)

/-- The network of `b` contains the one of `a`, in the same scope. -/
def SideEncloses (a : Saddr) (lenA : ℕ) (b : Saddr) (lenB : ℕ) : Prop :=
  match a, b with
  | .inet portA memA, .inet portB memB =>
    network 32 memA lenA ⊆ network 32 memB lenB ∧ PortsFit portA portB
  | .inet6 portA memA, .inet6 portB memB =>
    network 128 memA lenA ⊆ network 128 memB lenB ∧
      (∀ j, 16 ≤ j → j < 20 → memAt memA j = memAt memB j) ∧ PortsFit portA portB
  | _, _ => False

def Encloses (a b : Policyindex) : Prop :=
  KindFits a b ∧ SideEncloses a.src a.prefs b.src b.prefs ∧ SideEncloses a.dst a.prefd b.dst b.prefd

/-- What is compared under a mask: the first `l` bits, and the scope without the byte
    that a mask of full length clears. -/
def SideAccepts (a b : Saddr) (l : ℕ) : Prop :=
  match a, b with
  | .inet portA memA, .inet portB memB =>
    l ≤ 32 ∧ (∀ i < l, bitAt memA i = bitAt memB i) ∧ PortsFit portA portB
  | .inet6 portA memA, .inet6 portB memB =>
    l ≤ 128 ∧ (∀ i < l, bitAt memA i = bitAt memB i) ∧
      (∀ j, 16 ≤ j → j < 20 → (j = 16 → l < 128) → memAt memA j = memAt memB j) ∧
      PortsFit portA portB
  | _, _ => False

def Accepts (a b : Policyindex) : Prop :=
  KindFits a b ∧ SideAccepts a.src b.src b.prefs ∧ SideAccepts a.dst b.dst b.prefd

/-- An address that `mask_sockaddr` does not take with a prefix of `l` bits. -/
def Unmaskable (b : Saddr) (l : ℕ) : Prop :=
  match b with
  | .inet _ _ => 32 < l
  | .inet6 _ _ => 128 < l
  | _ => True

/-- The comparison comes to an address that cannot be masked. -/
def Exits (a b : Policyindex) : Prop :=
  KindFits a b ∧ sameFamily a.src b.src = true ∧ sameFamily a.dst b.dst = true ∧
    (Unmaskable b.src b.prefs ∨ SideAccepts a.src b.src b.prefs ∧ Unmaskable b.dst b.prefd)

section
variable {a b : Policyindex} {l : ℕ}

theorem cmpPorts_fit (portA portB : ℕ) :
    cmpsaddrValue (cmpPorts portA portB) ≤ cmpsaddrValue .WILDPORT_MATCH ↔ PortsFit portA portB := by
  unfold cmpPorts PortsFit
  split_ifs with heq hany
  · simp [heq, cmpsaddrValue]
  · simp [hany, cmpsaddrValue]
  · simp [heq, hany, cmpsaddrValue]

theorem mismatch_inet (portA portB : ℕ) (memA memB : Vector UInt8 12) (hl : l ≤ 32) :
    maskedMismatch (.inet portA memA) (.inet portB memB) l = some false ↔
      (∀ i < l, bitAt memA i = bitAt memB i) ∧ PortsFit portA portB := by
  have haddr : number (maskBytes 4 l memA) 0 4 = number (maskBytes 4 l memB) 0 4 ↔
      ∀ i < l, bitAt memA i = bitAt memB i := by
    rw [number_eq_iff, ← masked_eq_iff 4 (by omega)]
    simp
  unfold maskedMismatch
  rw [maskSockaddr_inet hl, maskSockaddr_inet hl, Option.bind_some, Option.map_some, Option.some.injEq,
    decide_eq_false_iff_not, not_lt, ← haddr, ← cmpPorts_fit]
  simp only [Saddr.sockaddr, cmpsaddr]
  split_ifs with h
  · simp [h, cmpsaddrValue]
  · simp [not_not.mp h]

theorem mismatch_inet6 (portA portB : ℕ) (memA memB : Vector UInt8 20) (hl : l ≤ 128) :
    maskedMismatch (.inet6 portA memA) (.inet6 portB memB) l = some false ↔
      (∀ i < l, bitAt memA i = bitAt memB i) ∧
        (∀ j, 16 ≤ j → j < 20 → (j = 16 → l < 128) → memAt memA j = memAt memB j) ∧
        PortsFit portA portB := by
  have haddr : number (maskBytes 16 l memA) 0 16 = number (maskBytes 16 l memB) 0 16 ↔
      ∀ i < l, bitAt memA i = bitAt memB i := by
    rw [number_eq_iff, ← masked_eq_iff 16 (by omega)]
    simp
  have hscope : number (maskBytes 16 l memA) 16 4 = number (maskBytes 16 l memB) 16 4 ↔
      ∀ j, 16 ≤ j → j < 20 → (j = 16 → l < 128) → memAt memA j = memAt memB j := by
    rw [number_eq_iff]
    simp only [memAt_maskBytes, maskByte]
    constructor
    · intro h j hlo hhi hfull
      have hj := h j hlo hhi
      rwa [if_neg (by omega), if_neg (by omega), if_neg (by omega), if_neg (by omega)] at hj
    · intro h j hlo hhi
      by_cases hj : j = l / 8
      · have hmod : l % 8 = 0 := by omega
        have hzero : keep 0 = 0 := rfl
        rw [if_pos hj, if_pos hj, hmod, hzero, UInt8.and_zero, UInt8.and_zero]
      · rw [if_neg hj, if_neg hj, if_neg (by omega), if_neg (by omega)]
        exact h j hlo hhi (by omega)
  unfold maskedMismatch
  rw [maskSockaddr_inet6 hl, maskSockaddr_inet6 hl, Option.bind_some, Option.map_some, Option.some.injEq,
    decide_eq_false_iff_not, not_lt, ← haddr, ← hscope, ← cmpPorts_fit]
  simp only [Saddr.sockaddr, cmpsaddr]
  split_ifs with h h'
  · simp [h, cmpsaddrValue]
  · simp [h', cmpsaddrValue]
  · simp [not_not.mp h, not_not.mp h']

theorem maskedMismatch_of_bad {a b : Saddr} (hbad : Unmaskable b l) : maskedMismatch a b l = none := by
  have hnone : maskSockaddr b l = none := by
    cases b with
    | unspec => rfl
    | inet port mem => exact if_pos hbad
    | inet6 port mem => exact if_pos hbad
    | other family => rfl
  unfold maskedMismatch
  rw [hnone]
  cases maskSockaddr a l <;> rfl

/-- Two addresses that can be masked. -/
theorem maskable_cases {a b : Saddr} (hfamily : sameFamily a b = true) (hgood : ¬ Unmaskable b l) :
    (∃ portA memA portB memB, a = .inet portA memA ∧ b = .inet portB memB ∧ l ≤ 32) ∨
      ∃ portA memA portB memB, a = .inet6 portA memA ∧ b = .inet6 portB memB ∧ l ≤ 128 := by
  cases a with
  | unspec => cases b <;> first | exact absurd trivial hgood | cases hfamily
  | other family => cases b <;> first | exact absurd trivial hgood | cases hfamily
  | inet portA memA =>
    cases b with
    | inet portB memB => exact Or.inl ⟨portA, memA, portB, memB, rfl, rfl, not_lt.mp hgood⟩
    | _ => cases hfamily
  | inet6 portA memA =>
    cases b with
    | inet6 portB memB => exact Or.inr ⟨portA, memA, portB, memB, rfl, rfl, not_lt.mp hgood⟩
    | _ => cases hfamily

theorem SideAccepts.maskable {a b : Saddr} (h : SideAccepts a b l) : ¬ Unmaskable b l := by
  cases a <;> cases b <;> first | exact h.elim | exact not_lt.mpr h.1

theorem eq_some_true {x : Option Bool} (hsome : x ≠ none) (hfalse : x ≠ some false) :
    x = some true := by
  cases x with
  | none => exact absurd rfl hsome
  | some value =>
    cases value with
    | false => exact absurd rfl hfalse
    | true => rfl

/-- How a side is compared, for two addresses of one family. -/
theorem maskedMismatch_cases {a b : Saddr} (hfamily : sameFamily a b = true) :
    (Unmaskable b l ∧ ¬ SideAccepts a b l ∧ maskedMismatch a b l = none) ∨
      (¬ Unmaskable b l ∧ SideAccepts a b l ∧ maskedMismatch a b l = some false) ∨
      (¬ Unmaskable b l ∧ ¬ SideAccepts a b l ∧ maskedMismatch a b l = some true) := by
  by_cases hbad : Unmaskable b l
  · exact Or.inl ⟨hbad, fun haccepts => haccepts.maskable hbad, maskedMismatch_of_bad hbad⟩
  · right
    have hfalse : maskedMismatch a b l = some false ↔ SideAccepts a b l := by
      rcases maskable_cases hfamily hbad with
        ⟨portA, memA, portB, memB, rfl, rfl, hl⟩ | ⟨portA, memA, portB, memB, rfl, rfl, hl⟩
      · rw [mismatch_inet portA portB memA memB hl]
        exact ⟨fun h => ⟨hl, h⟩, fun h => h.2⟩
      · rw [mismatch_inet6 portA portB memA memB hl]
        exact ⟨fun h => ⟨hl, h⟩, fun h => h.2⟩
    have hsome : maskedMismatch a b l ≠ none := by
      unfold maskedMismatch
      rcases maskable_cases hfamily hbad with
        ⟨portA, memA, portB, memB, rfl, rfl, hl⟩ | ⟨portA, memA, portB, memB, rfl, rfl, hl⟩
      · simp [maskSockaddr_inet hl]
      · simp [maskSockaddr_inet6 hl]
    by_cases haccepts : SideAccepts a b l
    · exact Or.inl ⟨hbad, haccepts, hfalse.mpr haccepts⟩
    · exact Or.inr ⟨hbad, haccepts, eq_some_true hsome fun h => haccepts (hfalse.mp h)⟩

theorem SideAccepts.sameFamily {a b : Saddr} (h : SideAccepts a b l) : sameFamily a b = true := by
  cases a <;> cases b <;> first | rfl | exact h.elim

/-- What the comparison with a policy returns. -/
theorem cmpspidxwild_cases (a b : Policyindex) :
    (Exits a b ∧ ¬ Accepts a b ∧ cmpspidxwild a b = none) ∨
      (¬ Exits a b ∧ Accepts a b ∧ cmpspidxwild a b = some 0) ∨
      (¬ Exits a b ∧ ¬ Accepts a b ∧ cmpspidxwild a b = some 1) := by
  unfold cmpspidxwild
  by_cases hkind : KindFits a b
  · rw [if_neg (not_not.mpr hkind.1), if_neg (not_not.mpr hkind.2)]
    by_cases hsrc : sameFamily a.src b.src = true
    · rw [if_neg (by simp [hsrc])]
      by_cases hdst : sameFamily a.dst b.dst = true
      · rw [if_neg (by simp [hdst])]
        rcases maskedMismatch_cases (l := b.prefs) hsrc with
          ⟨hbad, hno, heq⟩ | ⟨hgood, hyes, heq⟩ | ⟨hgood, hno, heq⟩
        · rw [heq]
          exact Or.inl ⟨⟨hkind, hsrc, hdst, Or.inl hbad⟩, fun h => hno h.2.1, rfl⟩
        · rw [heq]
          rcases maskedMismatch_cases (l := b.prefd) hdst with
            ⟨hbad', hno', heq'⟩ | ⟨hgood', hyes', heq'⟩ | ⟨hgood', hno', heq'⟩
          · simp only [heq']
            exact Or.inl ⟨⟨hkind, hsrc, hdst, Or.inr ⟨hyes, hbad'⟩⟩, fun h => hno' h.2.2, rfl⟩
          · simp only [heq']
            refine Or.inr (Or.inl ⟨fun h => ?_, ⟨hkind, hyes, hyes'⟩, rfl⟩)
            exact h.2.2.2.elim hgood fun hd => hgood' hd.2
          · simp only [heq']
            refine Or.inr (Or.inr ⟨fun h => ?_, fun h => hno' h.2.2, rfl⟩)
            exact h.2.2.2.elim hgood fun hd => hgood' hd.2
        · rw [heq]
          refine Or.inr (Or.inr ⟨fun h => ?_, fun h => hno h.2.1, rfl⟩)
          exact h.2.2.2.elim hgood fun hd => hno hd.1
      · rw [if_pos (Bool.eq_false_iff.mpr hdst)]
        exact Or.inr (Or.inr ⟨fun h => hdst h.2.2.1, fun h => hdst h.2.2.sameFamily, rfl⟩)
    · rw [if_pos (Bool.eq_false_iff.mpr hsrc)]
      exact Or.inr (Or.inr ⟨fun h => hsrc h.2.1, fun h => hsrc h.2.1.sameFamily, rfl⟩)
  · refine Or.inr (Or.inr ⟨fun h => hkind h.1, fun h => hkind h.1, ?_⟩)
    by_cases hdir : b.dir = IPSEC_DIR_ANY ∨ a.dir = b.dir
    · rw [if_neg (not_not.mpr hdir), if_pos (fun hproto => hkind ⟨hdir, hproto⟩)]
    · rw [if_pos hdir]

theorem SideEncloses.accepts {a b : Saddr} {lenA : ℕ} (h : SideEncloses a lenA b l)
    (hgood : ¬ Unmaskable b l) : SideAccepts a b l := by
  cases a <;> cases b <;> try exact h.elim
  case inet.inet portA memA portB memB =>
    have hl : l ≤ 32 := not_lt.mp hgood
    exact ⟨hl, fun i hi => (network_subset_iff.mp h.1 i (by omega) hi).2, h.2⟩
  case inet6.inet6 portA memA portB memB =>
    have hl : l ≤ 128 := not_lt.mp hgood
    exact ⟨hl, fun i hi => (network_subset_iff.mp h.1 i (by omega) hi).2,
      fun j hlo hhi _ => h.2.1 j hlo hhi, h.2.2⟩

theorem SideEncloses.sameFamily {a b : Saddr} {lenA : ℕ} (h : SideEncloses a lenA b l) :
    PolicyLookup.sameFamily a b = true := by
  cases a <;> cases b <;> first | rfl | exact h.elim

/-- A policy that encloses an index is accepted, unless its prefixes cannot be masked. -/
theorem Encloses.accepts (h : Encloses a b) (hexits : ¬ Exits a b) : Accepts a b := by
  have hgood : ¬ Unmaskable b.src b.prefs := fun hbad =>
    hexits ⟨h.1, h.2.1.sameFamily, h.2.2.sameFamily, Or.inl hbad⟩
  have hsrc := h.2.1.accepts hgood
  refine ⟨h.1, hsrc, h.2.2.accepts fun hbad => ?_⟩
  exact hexits ⟨h.1, h.2.1.sameFamily, h.2.2.sameFamily, Or.inr ⟨hsrc, hbad⟩⟩

end

/-! ### The lookup -/

section
variable (spidx : Policyindex) (sptree : List Secpolicy)

def Strict (p : Secpolicy) : Prop := cmpspidxstrict spidx p.spidx = 0

instance (p : Secpolicy) : Decidable (Strict spidx p) := by
  unfold Strict
  infer_instance

open Classical in
/-- The first policy that is strictly equal, or else the first one that encloses the index. -/
noncomputable def enclosingPolicy : Option Secpolicy :=
  (sptree.find? fun p => Strict spidx p).or (sptree.find? fun p => Encloses spidx p.spidx)

/-- Up to the first policy that is strictly equal or accepted none ends the process, and
    if that one is accepted only, with none strictly equal behind it, it encloses the index. -/
def Enclosing : Prop :=
  ∀ before p after, sptree = before ++ p :: after →
    (∀ t ∈ before, ¬ Strict spidx t ∧ ¬ Accepts spidx t.spidx) → ¬ Strict spidx p →
      ¬ Exits spidx p.spidx ∧
        (Accepts spidx p.spidx → (∀ t ∈ after, ¬ Strict spidx t) → Encloses spidx p.spidx)

variable {spidx sptree} {p : Secpolicy} {rest : List Secpolicy}

/-- Once a policy is accepted only a strictly equal one replaces it. -/
theorem getspLoop_found (p : Secpolicy) :
    getspLoop spidx rest (some p) =
      some ((rest.find? fun t => Strict spidx t).or (some p)) := by
  induction rest with
  | nil => rfl
  | cons t rest ih =>
    rw [getspLoop, List.find?_cons]
    by_cases ht : Strict spidx t
    · have ht' : cmpspidxstrict spidx t.spidx = 0 := ht
      simp [ht, ht']
    · have ht' : cmpspidxstrict spidx t.spidx ≠ 0 := ht
      simp [ht, ht', ih]

theorem enclosing_cons_of_strict (hp : Strict spidx p) : Enclosing spidx (p :: rest) := by
  intro before q after hsplit hbefore hq
  cases before with
  | nil =>
    cases hsplit
    exact absurd hp hq
  | cons t before =>
    cases hsplit
    exact absurd hp (hbefore p List.mem_cons_self).1

theorem enclosing_cons_of_accepted (hp : ¬ Strict spidx p) (haccepts : Accepts spidx p.spidx) :
    Enclosing spidx (p :: rest) ↔ ¬ Exits spidx p.spidx ∧
      ((∀ t ∈ rest, ¬ Strict spidx t) → Encloses spidx p.spidx) := by
  constructor
  · intro h
    have hhead := h [] p rest rfl (by simp) hp
    exact ⟨hhead.1, hhead.2 haccepts⟩
  · intro h before q after hsplit hbefore _
    cases before with
    | nil =>
      cases hsplit
      exact ⟨h.1, fun _ => h.2⟩
    | cons t before =>
      cases hsplit
      exact absurd haccepts (hbefore p List.mem_cons_self).2

theorem enclosing_cons_of_passed (hp : ¬ Strict spidx p) (haccepts : ¬ Accepts spidx p.spidx) :
    Enclosing spidx (p :: rest) ↔ ¬ Exits spidx p.spidx ∧ Enclosing spidx rest := by
  constructor
  · intro h
    refine ⟨(h [] p rest rfl (by simp) hp).1, fun before q after hsplit hbefore hq => ?_⟩
    apply h (p :: before) q after (by rw [hsplit]; rfl) _ hq
    intro t ht
    cases List.mem_cons.mp ht with
    | inl ht => exact ht ▸ ⟨hp, haccepts⟩
    | inr ht => exact hbefore t ht
  · intro h before q after hsplit hbefore hq
    cases before with
    | nil =>
      cases hsplit
      exact ⟨h.1, fun ha => absurd ha haccepts⟩
    | cons t before =>
      cases hsplit
      exact h.2 before q after rfl (fun t ht => hbefore t (List.mem_cons_of_mem _ ht)) hq

theorem getspLoop_strict (hp : Strict spidx p) : getspLoop spidx (p :: rest) none = some (some p) :=
  if_pos hp

theorem getspLoop_exits (hp : ¬ Strict spidx p) (h : cmpspidxwild spidx p.spidx = none) :
    getspLoop spidx (p :: rest) none = none := by
  have hp' : cmpspidxstrict spidx p.spidx ≠ 0 := hp
  simp [getspLoop, hp', h]

theorem getspLoop_accepts (hp : ¬ Strict spidx p) (h : cmpspidxwild spidx p.spidx = some 0) :
    getspLoop spidx (p :: rest) none = getspLoop spidx rest (some p) := by
  have hp' : cmpspidxstrict spidx p.spidx ≠ 0 := hp
  simp [getspLoop, hp', h]

theorem getspLoop_passes (hp : ¬ Strict spidx p) (h : cmpspidxwild spidx p.spidx = some 1) :
    getspLoop spidx (p :: rest) none = getspLoop spidx rest none := by
  have hp' : cmpspidxstrict spidx p.spidx ≠ 0 := hp
  simp [getspLoop, hp', h]

/-- The policy that the index should get when `p` is the first one. -/
theorem enclosingPolicy_of_find {t : Secpolicy} (hp : ¬ Strict spidx p)
    (hfind : rest.find? (fun t => Strict spidx t) = some t) :
    enclosingPolicy spidx (p :: rest) = some t := by
  simp [enclosingPolicy, hp, hfind]

theorem enclosingPolicy_eq_head_iff (hp : ¬ Strict spidx p)
    (hfind : rest.find? (fun t => Strict spidx t) = none) :
    enclosingPolicy spidx (p :: rest) = some p ↔ Encloses spidx p.spidx := by
  constructor
  · intro h
    simp only [enclosingPolicy, List.find?_cons, hp, decide_false, hfind, Option.none_or] at h
    by_contra hencloses
    simp only [hencloses, decide_false] at h
    have htrue := List.find?_some h
    exact hencloses (by simpa using htrue)
  · intro h
    simp [enclosingPolicy, hp, hfind, h]

/-- A policy accepted first is the right answer if a strictly equal one replaces it, or it
    encloses the index. -/
theorem getspLoop_accepted_iff (hp : ¬ Strict spidx p) :
    getspLoop spidx rest (some p) = some (enclosingPolicy spidx (p :: rest)) ↔
      ((∀ t ∈ rest, ¬ Strict spidx t) → Encloses spidx p.spidx) := by
  rw [getspLoop_found, Option.some.injEq]
  cases hfind : rest.find? fun t => Strict spidx t with
  | some t =>
    have ht := List.find?_some hfind
    have hmem := List.mem_of_find?_eq_some hfind
    rw [enclosingPolicy_of_find hp hfind]
    refine ⟨fun _ hno => ?_, fun _ => rfl⟩
    exact absurd (by simpa using ht) (hno t hmem)
  | none =>
    have hno : ∀ t ∈ rest, ¬ Strict spidx t := by
      intro t ht
      simpa using List.find?_eq_none.mp hfind t ht
    rw [Option.none_or, eq_comm, enclosingPolicy_eq_head_iff hp hfind]
    exact ⟨fun h _ => h, fun h => h hno⟩

theorem getspLoop_iff :
    getspLoop spidx sptree none = some (enclosingPolicy spidx sptree) ↔ Enclosing spidx sptree := by
  induction sptree with
  | nil => simp [getspLoop, enclosingPolicy, Enclosing]
  | cons p rest ih =>
    by_cases hp : Strict spidx p
    · have hspec : enclosingPolicy spidx (p :: rest) = some p := by
        simp [enclosingPolicy, hp]
      rw [getspLoop_strict hp, hspec]
      exact ⟨fun _ => enclosing_cons_of_strict hp, fun _ => rfl⟩
    · rcases cmpspidxwild_cases spidx p.spidx with
        ⟨hexits, haccepts, heq⟩ | ⟨hstays, haccepts, heq⟩ | ⟨hstays, haccepts, heq⟩
      · rw [getspLoop_exits hp heq, enclosing_cons_of_passed hp haccepts]
        constructor
        · intro h
          cases h
        · intro h
          exact absurd hexits h.1
      · rw [getspLoop_accepts hp heq, enclosing_cons_of_accepted hp haccepts,
          getspLoop_accepted_iff hp]
        exact ⟨fun h => ⟨hstays, h⟩, fun h => h.2⟩
      · have hencloses : ¬ Encloses spidx p.spidx := fun h => haccepts (h.accepts hstays)
        have hspec : enclosingPolicy spidx (p :: rest) = enclosingPolicy spidx rest := by
          simp [enclosingPolicy, hp, hencloses]
        rw [getspLoop_passes hp heq, enclosing_cons_of_passed hp haccepts, hspec, ih]
        exact ⟨fun h => ⟨hstays, h⟩, fun h => h.2⟩

end

/-! ### What masking leaves alone -/

/-- Two addresses differ in no byte outside the address itself. -/
def SameOutside : Saddr → Saddr → Prop
  | .inet port mem, .inet port' mem' => port = port' ∧ ∀ j, 4 ≤ j → memAt mem' j = memAt mem j
  | .inet6 port mem, .inet6 port' mem' => port = port' ∧ ∀ j, 16 ≤ j → memAt mem' j = memAt mem j
  | _, _ => False

/-- The prefix is shorter than the address, or the byte behind it is zero. -/
def ClearsNothing (b : Saddr) (l : ℕ) : Prop :=
  match b with
  | .inet _ mem => l < 32 ∨ memAt mem 4 = 0
  | .inet6 _ mem => l < 128 ∨ memAt mem 16 = 0
  | _ => True

theorem maskSockaddr_outside_iff {b masked : Saddr} {l : ℕ} (h : maskSockaddr b l = some masked) :
    SameOutside b masked ↔ ClearsNothing b l := by
  cases b with
  | unspec => cases h
  | other family => cases h
  | inet port mem =>
    by_cases hl : l ≤ 32
    · rw [maskSockaddr_inet hl] at h
      cases h
      have h4 : l ≤ 4 * 8 := by omega
      have hiff := maskBytes_outside_iff mem h4
      exact ⟨fun hsame => hiff.mp hsame.2, fun hclear => ⟨rfl, hiff.mpr hclear⟩⟩
    · have hnone : maskSockaddr (.inet port mem) l = none := if_pos (by omega)
      rw [hnone] at h
      cases h
  | inet6 port mem =>
    by_cases hl : l ≤ 128
    · rw [maskSockaddr_inet6 hl] at h
      cases h
      have h16 : l ≤ 16 * 8 := by omega
      have hiff := maskBytes_outside_iff mem h16
      exact ⟨fun hsame => hiff.mp hsame.2, fun hclear => ⟨rfl, hiff.mpr hclear⟩⟩
    · have hnone : maskSockaddr (.inet6 port mem) l = none := if_pos (by omega)
      rw [hnone] at h
      cases h

/-- When the lookup returns the policy that is strictly equal or encloses the index, and
    when a mask leaves the bytes behind an address. -/
theorem getspR_iff (sptree : List Secpolicy) (spidx : Policyindex) (b masked : Saddr) (l : ℕ) :
    (getspR sptree spidx = some (enclosingPolicy spidx sptree) ↔ Enclosing spidx sptree) ∧
    (maskSockaddr b l = some masked → (SameOutside b masked ↔ ClearsNothing b l)) :=
  ⟨getspLoop_iff, maskSockaddr_outside_iff⟩

/-- 10.0.0.0 and fe80::1 in scope 2. -/
def tenNet : Saddr := .inet 0 #v[10, 0, 0, 0, 0, 0, 0, 0, 0, 0, 0, 0]

def linkLocal : Saddr := .inet6 0 #v[0xfe, 0x80, 0, 0, 0, 0, 0, 0, 0, 0, 0, 0, 0, 0, 0, 1, 2, 0, 0, 0]

def netIndex (len : ℕ) : Policyindex :=
  { dir := 1
    src := tenNet
    dst := tenNet
    prefs := len
    prefd := len
    ulProto := IPSEC_ULPROTO_ANY }

theorem getspR_iff_ten :
    (getspR [{ spidx := netIndex 8, id := 1 }] (netIndex 24) =
        some (enclosingPolicy (netIndex 24) [{ spidx := netIndex 8, id := 1 }]) ↔
      Enclosing (netIndex 24) [{ spidx := netIndex 8, id := 1 }]) ∧
    (SameOutside linkLocal (.inet6 0 (maskBytes 16 64
        #v[0xfe, 0x80, 0, 0, 0, 0, 0, 0, 0, 0, 0, 0, 0, 0, 0, 1, 2, 0, 0, 0])) ↔
      ClearsNothing linkLocal 64) :=
  ⟨(getspR_iff _ _ linkLocal linkLocal 64).1, (getspR_iff [] (netIndex 24) linkLocal _ 64).2 rfl⟩

theorem ten_not_enclosed : ¬ Encloses (netIndex 8) (netIndex 24) := by
  intro h
  have hsub := (network_subset_iff.mp h.2.1.1 8 (by decide) (by decide)).1
  exact absurd hsub (by decide)

/-- A policy for 10.0.0.0/24 is found for 10.0.0.0/8, and a mask of 128 bits clears the scope. -/
theorem getspR_smaller :
    getspR [{ spidx := netIndex 24, id := 1 }] (netIndex 8) =
        some (some { spidx := netIndex 24, id := 1 }) ∧
      ¬ Encloses (netIndex 8) (netIndex 24) ∧
      ¬ Strict (netIndex 8) { spidx := netIndex 24, id := 1 } ∧
      maskSockaddr linkLocal 128 = some (.inet6 0
        #v[0xfe, 0x80, 0, 0, 0, 0, 0, 0, 0, 0, 0, 0, 0, 0, 0, 1, 0, 0, 0, 0]) :=
  ⟨by decide +kernel, ten_not_enclosed, by decide +kernel, by decide +kernel⟩

end WanStack.Racoon.PolicyLookup
