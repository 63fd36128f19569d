import WanStack.Aftr.Rewrite
import WanStack.Aftr.State
import WanStack.Lib.Tried

set_option autoImplicit false

/-!
# Patching the TCP MSS

`patch_tcpmss` and `fix_msscksum`. Every read of the option scan is tried against the
length of the packet. An option layout is what a peer may send: options up to the end
of the header, or up to an end of the list with padding behind it.
-/
namespace WanStack.Aftr
open OnesComplement Tried

def TCPOFF : ℕ := IPHDRLEN + 12
def TCPFLAGS : ℕ := IPHDRLEN + 13
def TCPFSYN : UInt8 := 0x02
def TCPOPTEOL : UInt8 := 0
def TCPOPTNOP : UInt8 := 1
def TCPOPTMSS : UInt8 := 2
def TCPOPTMSSLEN : ℕ := 4
def TCPOPTMD5 : UInt8 := 19

/-- The configuration of a tunnel that the packet routines read: its MTU, and the flags
    `TUNMSSFLG`, `TUNTBDROP` and `TUNTBICMP`. Commands keep the MTU in its bounds. -/
structure TunnelConf where
  mtu : ℕ
  mssflg : Bool
  tbdrop : Bool
  tbicmp : Bool
  mtuMin : TUNMINMTU ≤ mtu
  mtuMax : mtu ≤ IPMAXLEN
deriving DecidableEq

/-- The length of the TCP header, `(buf4[TCPOFF] & TCPOFFMSK) >> 2`. -/
def tcpHl (b : Buf) : ℕ := (byteAt b TCPOFF).toNat / 16 * 4

/-- The checksum `fix_msscksum` writes. -/
def fixMsscksum (psum mss newmss : ℕ) : ℕ :=
  let m := mss / 65536 + mss % 65536
  cksumFold (65535 - psum + (65535 - m) + newmss)

/-- The scan from `i` on. `none` is a return from it, and `found` is zero as long as there
    was no MSS option. -/
def optionScan (b : Buf) : ℕ → ℕ → ℕ → Result (Option ℕ)
  | 0, _, _ => .unfinished
  | k + 1, i, found =>
    if i < b.length then do
      let kind ← read b.length i 1 (byteAt b i)
      if kind = TCPOPTEOL then pure (some found)
      else if kind = TCPOPTNOP then optionScan b k (i + 1) found
      else if i + 2 > b.length then pure none
      else do
        let l ← read b.length (i + 1) 1 (byteAt b (i + 1)).toNat
        if l < 2 then pure none
        else if i + l > b.length then pure none
        else if kind = TCPOPTMD5 then pure none
        else optionScan b k (i + l) (if kind = TCPOPTMSS ∧ found = 0 then i else found)
    else pure (some found)

/-- The part behind the scan, for the option at `i`. -/
def clampMss (t : TunnelConf) (b : Buf) (i : ℕ) : Result Buf := do
  let l ← read b.length (i + 1) 1 (byteAt b (i + 1)).toNat
  if l ≠ TCPOPTMSSLEN then pure b
  else do
    let mss ← read b.length (i + 2) 2 (shortAt b (i + 2))
    if mss + IPHDRLEN + TCPHDRLEN ≤ t.mtu - IP6HDRLEN then pure b
    else
      let newmss := t.mtu - (IP6HDRLEN + IPHDRLEN + TCPHDRLEN)
      let cksum := fixMsscksum (shortAt b TCPCKSUMH) mss newmss
      pure (copyAt (copyAt b (i + 2) (twoBytes newmss)) TCPCKSUMH (twoBytes cksum))

def patchTcpmss (t : TunnelConf) (b : Buf) : Result Buf :=
  if !t.mssflg then pure b
  else do
    let flags ← read b.length TCPFLAGS 1 (byteAt b TCPFLAGS)
    if flags &&& TCPFSYN = 0 then pure b
    else do
      let hl ← read b.length TCPOFF 1 (tcpHl b)
      if hl + IPHDRLEN ≠ b.length then pure b
      else if hl ≤ TCPHDRLEN then pure b
      else do
        let r ← optionScan b (b.length + 1) (IPHDRLEN + TCPHDRLEN) 0
        match r with
        | none => pure b
        | some found => if found = 0 then pure b else clampMss t b found

/-! ### Option layouts -/

/-- An option with a length byte. -/
structure TcpOption where
  kind : UInt8
  data : Buf
  notEol : kind ≠ TCPOPTEOL
  notNop : kind ≠ TCPOPTNOP
  short : data.length + 2 < 256

inductive Item where
  | nop
  | option (o : TcpOption)

def Item.bytes : Item → Buf
  | .nop => [TCPOPTNOP]
  | .option o => o.kind :: UInt8.ofNat (o.data.length + 2) :: o.data

def itemsBytes (items : List Item) : Buf := items.flatMap Item.bytes

theorem itemsBytes_cons (it : Item) (items : List Item) :
    itemsBytes (it :: items) = it.bytes ++ itemsBytes items := List.flatMap_cons

/-- `pad` is empty or starts with the end of the list. -/
structure Layout where
  items : List Item
  pad : Buf
  ended : pad = [] ∨ byteAt pad 0 = TCPOPTEOL

def Layout.bytes (l : Layout) : Buf := itemsBytes l.items ++ l.pad

def Item.isKind (kind : UInt8) : Item → Bool
  | .nop => false
  | .option o => o.kind = kind

/-- Where the first MSS option stands, and its value bytes, for options that start at `i`. -/
def mssOption : List Item → ℕ → Option (ℕ × Buf)
  | [], _ => none
  | .nop :: rest, i => mssOption rest (i + 1)
  | .option o :: rest, i =>
    if o.kind = TCPOPTMSS then some (i, o.data) else mssOption rest (i + (o.data.length + 2))

/-- The bytes between the TCP header proper and the data. -/
def optionBytes (b : Buf) : Buf := bytesAt b (IPHDRLEN + TCPHDRLEN) (tcpHl b - TCPHDRLEN)

/-! ### The scan -/

/-- A round of the scan, whose reads are all inside the packet. -/
theorem optionScan_round {b : Buf} {i : ℕ} (k found : ℕ) (hi : i < b.length) :
    optionScan b (k + 1) i found =
      if byteAt b i = TCPOPTEOL then .through (some found)
      else if byteAt b i = TCPOPTNOP then optionScan b k (i + 1) found
      else if i + 2 > b.length then .through none
      else if (byteAt b (i + 1)).toNat < 2 ∨ i + (byteAt b (i + 1)).toNat > b.length ∨
          byteAt b i = TCPOPTMD5 then .through none
      else optionScan b k (i + (byteAt b (i + 1)).toNat)
        (if byteAt b i = TCPOPTMSS ∧ found = 0 then i else found) := by
  rw [optionScan, if_pos hi, read_bind_within (by omega)]
  by_cases heol : byteAt b i = TCPOPTEOL
  · rw [if_pos heol, if_pos heol]
    rfl
  rw [if_neg heol, if_neg heol]
  by_cases hnop : byteAt b i = TCPOPTNOP
  · rw [if_pos hnop, if_pos hnop]
  rw [if_neg hnop, if_neg hnop]
  by_cases hshort : i + 2 > b.length
  · rw [if_pos hshort, if_pos hshort]
    rfl
  rw [if_neg hshort, if_neg hshort, read_bind_within (by omega)]
  by_cases hlow : (byteAt b (i + 1)).toNat < 2
  · rw [if_pos hlow, if_pos (.inl hlow)]
    rfl
  by_cases hover : i + (byteAt b (i + 1)).toNat > b.length
  · rw [if_neg hlow, if_pos hover, if_pos (.inr (.inl hover))]
    rfl
  by_cases hmd5 : byteAt b i = TCPOPTMD5
  · rw [if_neg hlow, if_neg hover, if_pos hmd5, if_pos (.inr (.inr hmd5))]
    rfl
  have hgood : ¬((byteAt b (i + 1)).toNat < 2 ∨ i + (byteAt b (i + 1)).toNat > b.length ∨
      byteAt b i = TCPOPTMD5) := by
    rintro (h | h | h)
    · exact hlow h
    · exact hover h
    · exact hmd5 h
  rw [if_neg hlow, if_neg hover, if_neg hmd5, if_neg hgood]

theorem optionScan_end {b : Buf} {i : ℕ} (k found : ℕ) (hi : b.length ≤ i) :
    optionScan b (k + 1) i found = .through (some found) := by
  rw [optionScan, if_neg (by omega)]
  rfl

/-- The scan goes through, whatever the bytes are. -/
theorem optionScan_inside (b : Buf) {k i : ℕ} (found : ℕ) (hi : i ≤ b.length)
    (hk : b.length < i + k) : Inside (optionScan b k i found) := by
  induction k generalizing i found with
  | zero => omega
  | succ k ih =>
    rcases Nat.lt_or_ge i b.length with hlt | hge
    · rw [optionScan_round k found hlt]
      generalize (if byteAt b i = TCPOPTMSS ∧ found = 0 then i else found) = found'
      split_ifs with heol hnop hshort hbad
      · exact inside_through _
      · exact ih found (by omega) (by omega)
      · exact inside_through _
      · exact inside_through _
      · exact ih found' (by omega) (by omega)
    · rw [optionScan_end k found hge]
      exact inside_through _

theorem byteAt_drop {b : Buf} {i : ℕ} (h : i < b.length) :
    b.drop i = byteAt b i :: b.drop (i + 1) := by
  rw [List.drop_eq_getElem_cons h, byteAt, List.getD_eq_getElem?_getD,
    List.getElem?_eq_getElem h, Option.getD_some]

theorem drop_cons {b : Buf} {i : ℕ} {x : UInt8} {rest : Buf} (h : b.drop i = x :: rest) :
    i < b.length ∧ byteAt b i = x ∧ b.drop (i + 1) = rest := by
  have hlt : i < b.length := by
    by_contra hge
    rw [List.drop_eq_nil_of_le (by omega)] at h
    cases h
  rw [byteAt_drop hlt, List.cons.injEq] at h
  exact ⟨hlt, h⟩

/-- The bytes of an option at its place in the packet. -/
theorem option_at {b : Buf} {i : ℕ} {o : TcpOption} {rest : Buf}
    (h : b.drop i = (Item.option o).bytes ++ rest) :
    i + (o.data.length + 2) ≤ b.length ∧ byteAt b i = o.kind ∧
      (byteAt b (i + 1)).toNat = o.data.length + 2 ∧
      b.drop (i + (o.data.length + 2)) = rest ∧ bytesAt b (i + 2) o.data.length = o.data := by
  have hshort := o.short
  obtain ⟨-, hkind, hnext⟩ := drop_cons h
  obtain ⟨-, hlen, hdata⟩ := drop_cons hnext
  change b.drop (i + 1 + 1) = o.data ++ rest at hdata
  have htotal := congrArg List.length hdata
  simp only [List.length_drop, List.length_append] at htotal
  refine ⟨?_, hkind, ?_, ?_, ?_⟩
  · have := congrArg List.length h
    simp only [List.length_drop, List.length_append, Item.bytes, List.length_cons] at this
    omega
  · rw [hlen, UInt8.toNat_ofNat']
    omega
  · have := congrArg (List.drop o.data.length) hdata
    rw [List.drop_drop, List.drop_left] at this
    rw [← this]
    congr 1
    omega
  · rw [bytesAt]
    change (b.drop (i + 1 + 1)).take _ = _
    rw [hdata]
    exact List.take_left

/-- Over a layout the scan finds the first MSS option, unless there is an MD5 option. -/
theorem optionScan_layout {b pad : Buf} {items : List Item} {k i : ℕ} (found : ℕ)
    (h : b.drop i = itemsBytes items ++ pad) (hpad : pad = [] ∨ byteAt pad 0 = TCPOPTEOL)
    (hpos : 0 < i) (hi : i ≤ b.length) (hk : b.length < i + k) :
    optionScan b k i found = .through
      (if items.any (Item.isKind TCPOPTMD5) then none
        else some (if found = 0 then (mssOption items i).elim 0 Prod.fst else found)) := by
  induction items generalizing i k found with
  | nil =>
    obtain ⟨k, rfl⟩ := Nat.exists_eq_add_one_of_ne_zero (by omega : k ≠ 0)
    change b.drop i = pad at h
    cases pad with
    | nil =>
      have hend : b.length ≤ i := List.drop_eq_nil_iff.mp h
      rw [optionScan_end k found hend]
      cases found <;> rfl
    | cons x rest =>
      obtain ⟨hlt, hx, -⟩ := drop_cons h
      have heol : x = TCPOPTEOL := by
        rcases hpad with hnil | heol
        · cases hnil
        · exact heol
      rw [optionScan_round k found hlt, if_pos (hx.trans heol)]
      cases found <;> rfl
  | cons it items ih =>
    obtain ⟨k, rfl⟩ := Nat.exists_eq_add_one_of_ne_zero (by omega : k ≠ 0)
    have hcons : b.drop i = it.bytes ++ (itemsBytes items ++ pad) := by
      rw [h, itemsBytes_cons, List.append_assoc]
    cases it with
    | nop =>
      obtain ⟨hlt, hx, hrest⟩ := drop_cons hcons
      have hnot : byteAt b i ≠ TCPOPTEOL := by
        rw [hx]
        decide
      rw [optionScan_round k found hlt, if_neg hnot, if_pos hx]
      exact ih found hrest (by omega) (by omega) (by omega)
    | option o =>
      obtain ⟨hin, hkind, hlen, hrest, -⟩ := option_at hcons
      have hlt : i < b.length := by omega
      rw [optionScan_round k found hlt, hkind, if_neg o.notEol, if_neg o.notNop, if_neg (by omega),
        hlen]
      by_cases hmd5 : o.kind = TCPOPTMD5
      · rw [if_pos (.inr (.inr hmd5))]
        simp [Item.isKind, hmd5]
      · have hgood : ¬(o.data.length + 2 < 2 ∨ i + (o.data.length + 2) > b.length ∨
            o.kind = TCPOPTMD5) := by
          rintro (h | h | h)
          · omega
          · omega
          · exact hmd5 h
        rw [if_neg hgood, ih _ hrest (by omega) (by omega) (by omega)]
        have hany : (Item.option o :: items).any (Item.isKind TCPOPTMD5) =
            items.any (Item.isKind TCPOPTMD5) := by
          simp [Item.isKind, hmd5]
        rw [hany]
        by_cases hmss : o.kind = TCPOPTMSS
        · by_cases hfound : found = 0
          · simp [hmss, hfound, mssOption, Nat.ne_of_gt hpos]
          · simp [hmss, hfound]
        · simp [hmss, mssOption]

/-- Only a layout without an MD5 option is scanned to its end. -/
theorem layout_of_optionScan {b : Buf} {k i found f : ℕ} (hi : i ≤ b.length)
    (h : optionScan b k i found = .through (some f)) :
    ∃ items pad, b.drop i = itemsBytes items ++ pad ∧ (pad = [] ∨ byteAt pad 0 = TCPOPTEOL) ∧
      items.any (Item.isKind TCPOPTMD5) = false := by
  induction k generalizing i found with
  | zero => cases h
  | succ k ih =>
    rcases Nat.lt_or_ge i b.length with hlt | hge
    · have hbyte := byteAt_drop hlt
      rw [optionScan_round k found hlt] at h
      by_cases heol : byteAt b i = TCPOPTEOL
      · refine ⟨[], b.drop i, rfl, .inr ?_, rfl⟩
        rw [hbyte]
        exact heol
      rw [if_neg heol] at h
      by_cases hnop : byteAt b i = TCPOPTNOP
      · rw [if_pos hnop] at h
        obtain ⟨items, pad, hrest, hpad, hmd5⟩ := ih (by omega) h
        refine ⟨.nop :: items, pad, ?_, hpad, hmd5⟩
        rw [hbyte, hnop, hrest]
        rfl
      rw [if_neg hnop] at h
      by_cases hshort : i + 2 > b.length
      · rw [if_pos hshort] at h
        cases h
      rw [if_neg hshort] at h
      by_cases hbad : (byteAt b (i + 1)).toNat < 2 ∨ i + (byteAt b (i + 1)).toNat > b.length ∨
          byteAt b i = TCPOPTMD5
      · rw [if_pos hbad] at h
        cases h
      rw [if_neg hbad] at h
      push Not at hbad
      obtain ⟨hlow, hover, hnomd5⟩ := hbad
      obtain ⟨items, pad, hrest, hpad, hmd5⟩ := ih hover h
      have hdata : (bytesAt b (i + 2) ((byteAt b (i + 1)).toNat - 2)).length =
          (byteAt b (i + 1)).toNat - 2 := bytesAt_length (by omega)
      have hbyte' : b.drop (i + 1) = byteAt b (i + 1) :: b.drop (i + 2) := byteAt_drop (by omega)
      let o : TcpOption :=
        { kind := byteAt b i
          data := bytesAt b (i + 2) ((byteAt b (i + 1)).toNat - 2)
          notEol := heol
          notNop := hnop
          short := by
            have := (byteAt b (i + 1)).toNat_lt
            rw [hdata]
            omega }
      have hlen : UInt8.ofNat (o.data.length + 2) = byteAt b (i + 1) := by
        change UInt8.ofNat ((bytesAt b (i + 2) ((byteAt b (i + 1)).toNat - 2)).length + 2) = _
        rw [hdata, Nat.sub_add_cancel hlow, UInt8.ofNat_toNat]
      refine ⟨.option o :: items, pad, ?_, hpad, ?_⟩
      · have hjoin : b.drop (i + 2) = o.data ++ b.drop (i + (byteAt b (i + 1)).toNat) := by
          have hend : i + (byteAt b (i + 1)).toNat = i + 2 + ((byteAt b (i + 1)).toNat - 2) := by
            omega
          have hcut :=
            (List.take_append_drop ((byteAt b (i + 1)).toNat - 2) (b.drop (i + 2))).symm
          rw [List.drop_drop, ← hend] at hcut
          exact hcut
        rw [hbyte, hbyte', hjoin, hrest, ← hlen, itemsBytes_cons, List.append_assoc]
        rfl
      · have hkind : o.kind ≠ TCPOPTMD5 := hnomd5
        simp [Item.isKind, hkind, hmd5]
    · refine ⟨[], [], ?_, .inl rfl, rfl⟩
      exact List.drop_eq_nil_of_le hge

/-! ### The packet after it -/

/-- A SYN segment without data whose option list ends as it should, holds no MD5 option,
    and has its first MSS option at `i`. -/
structure Clamps (t : TunnelConf) (b : Buf) (l : Layout) (i : ℕ) (value : Buf) : Prop where
  on : t.mssflg = true
  syn : byteAt b TCPFLAGS &&& TCPFSYN ≠ 0
  noData : tcpHl b + IPHDRLEN = b.length
  options : optionBytes b = l.bytes
  noMd5 : l.items.any (Item.isKind TCPOPTMD5) = false
  mss : mssOption l.items (IPHDRLEN + TCPHDRLEN) = some (i, value)
  two : value.length = 2

/-- The value is the least of the two, and no other byte but those of the checksum differs. -/
structure Clamped (t : TunnelConf) (b b' : Buf) (i : ℕ) : Prop where
  length : b'.length = b.length
  value : shortAt b' (i + 2) =
    min (shortAt b (i + 2)) (t.mtu - (IP6HDRLEN + IPHDRLEN + TCPHDRLEN))
  others : ∀ j, j ≠ i + 2 → j ≠ i + 3 → j ≠ TCPCKSUMH → j ≠ TCPCKSUMH + 1 →
    byteAt b' j = byteAt b j

/-- `pseudo_cksum` over the whole segment. -/
def TcpSummed (b : Buf) : Prop := pseudoCksum b (twoBytes (b.length - IPHDRLEN)) = 0

section Patch

variable {t : TunnelConf} {b : Buf} (hlen : IPHDRLEN + TCPHDRLEN ≤ b.length)

theorem mssOption_at {pad v : Buf} {items : List Item} {i j : ℕ}
    (h : b.drop i = itemsBytes items ++ pad) (hmss : mssOption items i = some (j, v)) :
    i ≤ j ∧ j + (v.length + 2) ≤ b.length ∧ (byteAt b (j + 1)).toNat = v.length + 2 := by
  induction items generalizing i with
  | nil => cases hmss
  | cons it items ih =>
    rw [itemsBytes_cons, List.append_assoc] at h
    cases it with
    | nop =>
      obtain ⟨-, -, hrest⟩ := drop_cons h
      have := ih hrest hmss
      omega
    | option o =>
      obtain ⟨hin, -, hbyte, hrest, -⟩ := option_at h
      rw [mssOption] at hmss
      split_ifs at hmss with hkind
      · cases hmss
        exact ⟨Nat.le_refl _, hin, hbyte⟩
      · have := ih hrest hmss
        omega

theorem optionBytes_eq (h : tcpHl b + IPHDRLEN = b.length) :
    optionBytes b = b.drop (IPHDRLEN + TCPHDRLEN) := by
  rw [optionBytes, bytesAt]
  apply List.take_of_length_le
  rw [List.length_drop]
  change _ - (20 + 20) ≤ _ - 20
  change _ + 20 = _ at h
  omega

/-- Where the scan gets for a segment that is patched. -/
theorem clamps_found {l : Layout} {i : ℕ} {v : Buf} (h : Clamps t b l i v)
    (hlen : IPHDRLEN + TCPHDRLEN ≤ b.length) :
    optionScan b (b.length + 1) (IPHDRLEN + TCPHDRLEN) 0 = .through (some i) ∧ 40 ≤ i ∧
      i + 4 ≤ b.length ∧ (byteAt b (i + 1)).toNat = 4 := by
  have hdrop : b.drop (IPHDRLEN + TCPHDRLEN) = itemsBytes l.items ++ l.pad := by
    rw [← optionBytes_eq h.noData, h.options, Layout.bytes]
  obtain ⟨hfrom, hto, hbyte⟩ := mssOption_at hdrop h.mss
  have htwo := h.two
  have hscan := optionScan_layout 0 hdrop l.ended (by decide) hlen
    (Nat.lt_add_left _ (Nat.lt_succ_self _))
  rw [h.noMd5, h.mss] at hscan
  refine ⟨hscan, hfrom, by omega, by omega⟩

include hlen in
/-- The guards in front of the scan, whose reads are inside the header. -/
theorem patchTcpmss_guards (hon : t.mssflg = true) (hsyn : byteAt b TCPFLAGS &&& TCPFSYN ≠ 0)
    (hnoData : tcpHl b + IPHDRLEN = b.length) (hsome : TCPHDRLEN < tcpHl b) :
    patchTcpmss t b = optionScan b (b.length + 1) (IPHDRLEN + TCPHDRLEN) 0 >>= fun r =>
      match r with
      | none => pure b
      | some found => if found = 0 then pure b else clampMss t b found := by
  change 40 ≤ _ at hlen
  unfold patchTcpmss
  rw [hon, if_neg (by decide), read_bind_within (by change 33 + 1 ≤ _; omega), if_neg hsyn,
    read_bind_within (by change 32 + 1 ≤ _; omega), if_neg (not_not.mpr hnoData),
    if_neg (Nat.not_le.mpr hsome)]

theorem clamps_patch {l : Layout} {i : ℕ} {v : Buf} (h : Clamps t b l i v)
    (hlen : IPHDRLEN + TCPHDRLEN ≤ b.length) : patchTcpmss t b = clampMss t b i := by
  obtain ⟨hscan, hfrom, hto, -⟩ := clamps_found h hlen
  have hnoData := h.noData
  have hsome : TCPHDRLEN < tcpHl b := by
    change 20 < _
    change _ + 20 = _ at hnoData
    omega
  rw [patchTcpmss_guards hlen h.on h.syn h.noData hsome, hscan]
  change (if i = 0 then _ else _) = _
  rw [if_neg (by omega)]

/-- The packet stays as it is, or it is one that is patched. -/
theorem patchTcpmss_cases (hlen : IPHDRLEN + TCPHDRLEN ≤ b.length) :
    patchTcpmss t b = .through b ∨ ∃ l i v, Clamps t b l i v := by
  have h40 : 40 ≤ b.length := hlen
  by_cases hon : t.mssflg = true
  · by_cases hsyn : byteAt b TCPFLAGS &&& TCPFSYN = 0
    · left
      unfold patchTcpmss
      rw [hon, if_neg (by decide), read_bind_within (by change 33 + 1 ≤ _; omega), if_pos hsyn]
      rfl
    · by_cases hnoData : tcpHl b + IPHDRLEN = b.length
      · by_cases hsome : TCPHDRLEN < tcpHl b
        · rw [patchTcpmss_guards hlen hon hsyn hnoData hsome]
          obtain ⟨r, hscan⟩ := optionScan_inside b 0 hlen (Nat.lt_add_left _ (Nat.lt_succ_self _))
          rw [hscan]
          cases r with
          | none => exact .inl rfl
          | some found =>
            obtain ⟨items, pad, hdrop, hpad, hnoMd5⟩ := layout_of_optionScan hlen hscan
            have hlayout := optionScan_layout 0 hdrop hpad (by decide) hlen
              (Nat.lt_add_left _ (Nat.lt_succ_self _))
            rw [hscan, hnoMd5] at hlayout
            cases hmss : mssOption items (IPHDRLEN + TCPHDRLEN) with
            | none =>
              left
              rw [hmss] at hlayout
              cases hlayout
              rfl
            | some p =>
              obtain ⟨i, v⟩ := p
              obtain ⟨hfrom, hto, hbyte⟩ := mssOption_at hdrop hmss
              rw [hmss] at hlayout
              cases hlayout
              by_cases htwo : v.length = 2
              · right
                refine ⟨⟨items, pad, hpad⟩, i, v, hon, hsyn, hnoData, ?_, hnoMd5, hmss, htwo⟩
                rw [optionBytes_eq hnoData, hdrop, Layout.bytes]
              · left
                change 40 ≤ i at hfrom
                change (if i = 0 then _ else clampMss t b i) = _
                rw [if_neg (by omega), clampMss, read_bind_within (by omega),
                  if_pos (by change _ ≠ 4; omega)]
                rfl
        · left
          unfold patchTcpmss
          rw [hon, if_neg (by decide), read_bind_within (by change 33 + 1 ≤ _; omega), if_neg hsyn,
            read_bind_within (by change 32 + 1 ≤ _; omega), if_neg (not_not.mpr hnoData),
            if_pos (Nat.le_of_not_lt hsome)]
          rfl
      · left
        unfold patchTcpmss
        rw [hon, if_neg (by decide), read_bind_within (by change 33 + 1 ≤ _; omega), if_neg hsyn,
          read_bind_within (by change 32 + 1 ≤ _; omega), if_pos hnoData]
        rfl
  · left
    unfold patchTcpmss
    rw [Bool.eq_false_iff.mpr hon]
    rfl

/-- The bytes that are written where the value is too large. -/
def patchedMss (t : TunnelConf) (b : Buf) (i : ℕ) : Buf :=
  copyAt
    (copyAt b (i + 2) (twoBytes (t.mtu - (IP6HDRLEN + IPHDRLEN + TCPHDRLEN))))
    TCPCKSUMH
    (twoBytes (fixMsscksum (shortAt b TCPCKSUMH) (shortAt b (i + 2))
      (t.mtu - (IP6HDRLEN + IPHDRLEN + TCPHDRLEN))))

theorem clampMss_eq {i : ℕ} (hto : i + 4 ≤ b.length) (hbyte : (byteAt b (i + 1)).toNat = 4) :
    clampMss t b i = .through
      (if shortAt b (i + 2) ≤ t.mtu - (IP6HDRLEN + IPHDRLEN + TCPHDRLEN) then b
        else patchedMss t b i) := by
  have hmin : 1280 ≤ t.mtu := t.mtuMin
  rw [clampMss, read_bind_within (by omega), if_neg (by rw [hbyte]; decide),
    read_bind_within (by omega)]
  have hsame : shortAt b (i + 2) + IPHDRLEN + TCPHDRLEN ≤ t.mtu - IP6HDRLEN ↔
      shortAt b (i + 2) ≤ t.mtu - (IP6HDRLEN + IPHDRLEN + TCPHDRLEN) := by
    change _ + 20 + 20 ≤ _ - 40 ↔ _ ≤ _ - (40 + 20 + 20)
    omega
  by_cases hle : shortAt b (i + 2) ≤ t.mtu - (IP6HDRLEN + IPHDRLEN + TCPHDRLEN)
  · rw [if_pos (hsame.mpr hle), if_pos hle]
    rfl
  · rw [if_neg (fun e => hle (hsame.mp e)), if_neg hle]
    rfl

theorem mtu_value (t : TunnelConf) :
    t.mtu - (IP6HDRLEN + IPHDRLEN + TCPHDRLEN) < 65536 := by
  have hmax : t.mtu ≤ 65535 := t.mtuMax
  omega

theorem patched_clamped {i : ℕ} (hfrom : 40 ≤ i) (hto : i + 4 ≤ b.length)
    (hlarge : ¬shortAt b (i + 2) ≤ t.mtu - (IP6HDRLEN + IPHDRLEN + TCPHDRLEN)) :
    Clamped t b (patchedMss t b i) i := by
  have hvalue : i + 2 + (twoBytes (t.mtu - (IP6HDRLEN + IPHDRLEN + TCPHDRLEN))).length ≤
      b.length := by
    rw [twoBytes_length]
    omega
  have h1 := copyAt_length hvalue
  have hcksum : ∀ n, TCPCKSUMH + (twoBytes n).length ≤
      (copyAt b (i + 2) (twoBytes (t.mtu - (IP6HDRLEN + IPHDRLEN + TCPHDRLEN)))).length := by
    intro n
    rw [h1]
    change 36 + 2 ≤ _
    omega
  refine ⟨?_, ?_, ?_⟩
  · rw [patchedMss, copyAt_length (hcksum _), h1]
  · rw [patchedMss, shortAt_copyAt_other (hcksum _) (by omega), shortAt_copyAt_self hvalue rfl,
      twoBytes_sum (mtu_value t)]
    · omega
    · right
      change 36 + 2 ≤ _
      omega
  · intro j hj hj' hk hk'
    rw [patchedMss, byteAt_copyAt_other (hcksum _), byteAt_copyAt_other hvalue]
    · rw [twoBytes_length]
      omega
    · rw [twoBytes_length]
      omega

theorem fixMsscksum_eq {psum mss newmss : ℕ} (hmss : mss < 65536) (hnewmss : newmss < 65536) :
    fixMsscksum psum mss newmss = cksum 65535 (65535 - psum + (65535 - mss) + newmss) := by
  have hcarry : mss / 65536 + mss % 65536 = mss := by omega
  rw [fixMsscksum, hcarry]
  exact cksumFold_eq (by omega)

/-- The same as `fixCksum_sum`, for a value of the option. -/
theorem fixMsscksum_sum {s s' psum mss newmss : ℕ} (hpsum : psum < 65536) (hmss : mss < 65536)
    (hnewmss : newmss < 65536) (h : 65535 ∣ s)
    (hs : s' + mss + psum = s + newmss + fixMsscksum psum mss newmss) : 65535 ∣ s' := by
  have hdvd := @cksum_dvd 65535 (65535 - psum + (65535 - mss) + newmss) (by omega)
  rw [← fixMsscksum_eq hmss hnewmss] at hdvd
  omega

/-- At an even offset the words of the value are those that are summed. -/
theorem patched_sum {i : ℕ} (hfrom : 40 ≤ i) (hto : i + 4 ≤ b.length) (heven : i % 2 = 0) :
    cksumSum ((patchedMss t b i).drop IPSRC) + shortAt b (i + 2) + shortAt b TCPCKSUMH =
      cksumSum (b.drop IPSRC) + (t.mtu - (IP6HDRLEN + IPHDRLEN + TCPHDRLEN)) +
        fixMsscksum (shortAt b TCPCKSUMH) (shortAt b (i + 2))
          (t.mtu - (IP6HDRLEN + IPHDRLEN + TCPHDRLEN)) := by
  have hmss := mtu_value t
  unfold patchedMss
  generalize t.mtu - (IP6HDRLEN + IPHDRLEN + TCPHDRLEN) = newmss at hmss ⊢
  have hfix : fixMsscksum (shortAt b TCPCKSUMH) (shortAt b (i + 2)) newmss ≤ 65535 := by
    rw [fixMsscksum_eq (short_lt b _) hmss]
    exact cksum_le _ _
  generalize fixMsscksum (shortAt b TCPCKSUMH) (shortAt b (i + 2)) newmss = cksum at hfix ⊢
  change cksumSum (List.drop 12 (copyAt _ 36 _)) + _ + shortAt b 36 = cksumSum (b.drop 12) + _ + _
  have hrest : (b.drop 12).length = b.length - 12 := List.length_drop
  have hvalue : i + 2 + (twoBytes newmss).length ≤ b.length := by
    rw [twoBytes_length]
    omega
  have hword : 36 + (twoBytes cksum).length ≤ (copyAt b (i + 2) (twoBytes newmss)).length := by
    rw [copyAt_length hvalue, twoBytes_length]
    omega
  have hdrop : (copyAt (copyAt b (i + 2) (twoBytes newmss)) 36 (twoBytes cksum)).drop 12 =
      copyAt (copyAt (b.drop 12) (i + 2 - 12) (twoBytes newmss)) 24 (twoBytes cksum) := by
    rw [copyAt_drop hword (by decide), copyAt_drop hvalue (by omega)]
  have hsum := cksumSum_copyAt_two (x := b.drop 12) (v := twoBytes newmss) (u := twoBytes cksum)
    (i := i + 2 - 12) (j := 24) (by omega) rfl (by rw [twoBytes_length])
    (by rw [twoBytes_length]) (by rw [twoBytes_length]; omega) (by rw [twoBytes_length]; omega)
    (by rw [twoBytes_length, twoBytes_length]; omega)
  have hi : 12 + (i + 2 - 12) = i + 2 := by omega
  rw [twoBytes_length, twoBytes_length, bytesAt_drop, bytesAt_drop, hi,
    cksumSum_two (by omega), cksumSum_two (by omega), twoBytes_sum hmss,
    twoBytes_sum (by omega)] at hsum
  rw [hdrop, hsum]

theorem patched_summed {i : ℕ} (hfrom : 40 ≤ i) (hto : i + 4 ≤ b.length) (heven : i % 2 = 0)
    (hmost : b.length ≤ IPMAXLEN) (hsyn : byteAt b TCPFLAGS &&& TCPFSYN ≠ 0)
    (hlarge : ¬shortAt b (i + 2) ≤ t.mtu - (IP6HDRLEN + IPHDRLEN + TCPHDRLEN))
    (h : TcpSummed b) : TcpSummed (patchedMss t b i) := by
  have hc := patched_clamped hfrom hto hlarge
  have hlen := hc.length
  have hsum := patched_sum (t := t) hfrom hto heven
  have hproto : byteAt (patchedMss t b i) IPPROTO = byteAt b IPPROTO :=
    hc.others 9 (by omega) (by omega) (by decide) (by decide)
  have hflags : byteAt (patchedMss t b i) TCPFLAGS = byteAt b TCPFLAGS :=
    hc.others 33 (by omega) (by omega) (by decide) (by decide)
  unfold TcpSummed pseudoCksum at h ⊢
  rw [inCksum_eq_zero (pseudo_length rfl hmost), pseudo_sum rfl] at h
  rw [hlen, inCksum_eq_zero (pseudo_length rfl (by rw [hlen]; exact hmost)), pseudo_sum rfl, hproto]
  constructor
  · apply fixMsscksum_sum (short_lt b TCPCKSUMH) (short_lt b (i + 2)) (mtu_value t) h.1
    omega
  · have hpos : 0 < cksumSum ((patchedMss t b i).drop IPSRC) := by
      apply cksumSum_pos (TCPFLAGS - IPSRC)
      rw [byteAt_drop_add]
      change byteAt (patchedMss t b i) TCPFLAGS ≠ 0
      rw [hflags]
      intro hzero
      rw [hzero] at hsyn
      exact hsyn (by decide)
    omega

end Patch

theorem patchTcpmss_clamps (t : TunnelConf) {b : Buf} (hlen : IPHDRLEN + TCPHDRLEN ≤ b.length)
    (hmost : b.length ≤ IPMAXLEN) :
    ∃ b', patchTcpmss t b = .through b' ∧
      (∀ l i v, Clamps t b l i v →
        Clamped t b b' i ∧ (i % 2 = 0 → TcpSummed b → TcpSummed b')) ∧
      ((∀ l i v, ¬Clamps t b l i v) → b' = b) := by
  by_cases hex : ∃ l i v, Clamps t b l i v
  · obtain ⟨l, i, v, h⟩ := hex
    obtain ⟨-, hfrom, hto, hbyte⟩ := clamps_found h hlen
    refine ⟨_, (clamps_patch h hlen).trans (clampMss_eq hto hbyte), ?_, ?_⟩
    · intro l' i' v' h'
      -- The scan finds one option only.
      have hsame : i' = i := by
        have hscan := (clamps_found h' hlen).1
        rw [(clamps_found h hlen).1] at hscan
        cases hscan
        rfl
      subst hsame
      by_cases hle : shortAt b (i' + 2) ≤ t.mtu - (IP6HDRLEN + IPHDRLEN + TCPHDRLEN)
      · rw [if_pos hle]
        exact ⟨⟨rfl, (Nat.min_eq_left hle).symm, fun _ _ _ _ _ => rfl⟩, fun _ hsum => hsum⟩
      · rw [if_neg hle]
        refine ⟨patched_clamped hfrom hto hle, ?_⟩
        intro heven hsum
        exact patched_summed hfrom hto heven hmost h.syn hle hsum
    · intro hnone
      exact absurd h (hnone l i v)
  · have hnone : ∀ l i v, ¬Clamps t b l i v := fun l i v h => hex ⟨l, i, v, h⟩
    obtain hsame | hclamps := patchTcpmss_cases (t := t) hlen
    · refine ⟨b, hsame, ?_, fun _ => rfl⟩
      intro l i v h
      exact absurd h (hnone l i v)
    · exact absurd hclamps hex

/-- A tunnel with the least MTU, whose SYN segments are patched. -/
def patching : TunnelConf where
  mtu := 1280
  mssflg := true
  tbdrop := false
  tbicmp := false
  mtuMin := by decide
  mtuMax := by decide

/-- A SYN segment with the MSS 1460, with and without data. -/
def synSegment : Buf :=
  [69, 0, 0, 44, 0, 0, 64, 0, 64, 6, 110, 194, 10, 0, 0, 1, 192, 0, 2, 9, 4, 0, 0, 80, 0, 0, 0, 1,
    0, 0, 0, 0, 96, 2, 255, 255, 199, 203, 0, 0, 2, 4, 5, 180]

def synData : Buf :=
  [69, 0, 0, 46, 0, 0, 64, 0, 64, 6, 110, 192, 10, 0, 0, 1, 192, 0, 2, 9, 4, 0, 0, 80, 0, 0, 0, 1,
    0, 0, 0, 0, 96, 2, 255, 255, 198, 199, 0, 0, 2, 4, 5, 180, 1, 2]

/-- The MSS option alone. -/
def mssLayout : Layout where
  items := [.option
    { kind := TCPOPTMSS
      data := [5, 180]
      notEol := by decide
      notNop := by decide
      short := by decide }]
  pad := []
  ended := .inl rfl

theorem synSegment_clamps : Clamps patching synSegment mssLayout 40 [5, 180] :=
  { on := rfl
    syn := by decide
    noData := rfl
    options := rfl
    noMd5 := rfl
    mss := rfl
    two := rfl }

theorem synSegment_summed : TcpSummed synSegment := by
  unfold TcpSummed
  decide +kernel

theorem patchTcpmss_clamps_synSegment :
    ∃ b', patchTcpmss patching synSegment = .through b' ∧ shortAt b' 42 = 1200 ∧ TcpSummed b' := by
  obtain ⟨b', hpatch, hclamps, -⟩ :=
    patchTcpmss_clamps patching (b := synSegment) (by decide) (by decide)
  obtain ⟨hclamped, hsummed⟩ := hclamps mssLayout 40 [5, 180] synSegment_clamps
  have hmss : shortAt synSegment (40 + 2) = 1460 := by decide
  have hvalue := hclamped.value
  rw [hmss] at hvalue
  exact ⟨b', hpatch, hvalue, hsummed (by decide) synSegment_summed⟩

/-- A SYN segment with data is left alone. -/
theorem synData_not_clamped :
    ¬∀ (t : TunnelConf) (b : Buf) (l : Layout) (i : ℕ) (v : Buf), t.mssflg = true →
      byteAt b TCPFLAGS &&& TCPFSYN ≠ 0 → TcpSummed b → optionBytes b = l.bytes →
      mssOption l.items (IPHDRLEN + TCPHDRLEN) = some (i, v) → v.length = 2 →
      ∃ b', patchTcpmss t b = .through b' ∧ Clamped t b b' i ∧ TcpSummed b' := by
  intro hall
  have hsum : TcpSummed synData := by
    unfold TcpSummed
    decide +kernel
  obtain ⟨b', hpatch, hclamped, -⟩ :=
    hall patching synData mssLayout 40 [5, 180] rfl (by decide) hsum rfl rfl rfl
  have hsame : patchTcpmss patching synData = .through synData := by
    unfold patchTcpmss
    rw [if_neg (by decide), read_bind_within (by decide), if_neg (by decide),
      read_bind_within (by decide), if_pos (by decide)]
    rfl
  rw [hsame] at hpatch
  cases hpatch
  have hvalue := hclamped.value
  exact absurd hvalue (by decide)

end WanStack.Aftr
