import WanStack.Racoon.Informational
import WanStack.Racoon.SaChain

set_option autoImplicit false

/-!
# Payloads written and read

`isakmp_plist_set_all` lays payloads out one after the other, and `isakmp_parsewoh`
finds them again. Its result is an array that grows while it is filled; a pointer into
the message is an offset, one into the array an index. Memory suffices.
-/
namespace WanStack.Racoon.Codec
open Aftr (Buf byteAt shortAt bytesAt)
open Proposal (GEN_LEN ISAKMP_NPTYPE_NONE payload)
open Handles (ISAKMP_NP)

/-! ### Reading -/

/-- An `isakmp_parse_t` of the array. -/
structure Slot where
  type : ℕ
  ptr : Option ℕ
  len : ℕ
deriving DecidableEq

/-- What ends the array, and what `vmalloc` fills it with. -/
def slotNone : Slot := { type := ISAKMP_NPTYPE_NONE, ptr := none, len := 0 }

/-- How the parser ends: not at all, by a write behind its array, or as it returns. -/
inductive Parsed where
  | unfinished
  | overrun
  | null
  | result (slots : List Slot)
deriving DecidableEq

/-- The array, twice as long if `p` is at its last slot. -/
def room (slots : List Slot) (p : ℕ) : List Slot :=
  if slots.length - 1 ≤ p then slots ++ List.replicate slots.length slotNone else slots

/-- The loop of `isakmp_parsewoh`, with a bound on its rounds. -/
def parsewohLoop (mem : Buf) : ℕ → ℕ → ℕ → ℤ → List Slot → ℕ → Parsed
  | 0, _, _, _, _, _ => .unfinished
  | k + 1, np, gen, tlen, slots, p =>
    if ¬ 0 < tlen ∨ np = ISAKMP_NPTYPE_NONE then
      if p < slots.length then .result (slots.set p slotNone) else .overrun
    else if tlen ≤ GEN_LEN then .null
    else if slots.length ≤ p then .overrun
    else
      let plen := shortAt mem (gen + 2)
      if plen < GEN_LEN ∨ tlen < plen then .null
      else parsewohLoop mem k (byteAt mem gen).toNat (gen + plen) (tlen - plen)
        (room (slots.set p { type := np, ptr := some gen, len := plen }) (p + 1)) (p + 1)

/-- `isakmp_parsewoh` of `len` bytes of the memory from `gen` on. -/
def parsewoh (np0 : ℕ) (mem : Buf) (len : ℤ) : Parsed :=
  parsewohLoop mem (len.toNat + 1) (np0 % 256) 0 len (List.replicate 5 slotNone) 0

/-- A size stored in an `int`. -/
def toInt (n : ℤ) : ℤ := (n + 2147483648) % 4294967296 - 2147483648

/-- `isakmp_parse`. -/
def parseMessage (buf : Buf) : Parsed :=
  parsewoh (byteAt buf ISAKMP_NP).toNat (buf.drop ISAKMP_LEN) (toInt ((buf.length : ℤ) - ISAKMP_LEN))

/-! ### Writing -/

/-- An item of a list of payloads. -/
structure PayloadList where
  payloadType : UInt8
  payload : Buf
  type_ne : payloadType ≠ 0
  fits : payload.length ≤ 65531

/-- The loop of `isakmp_plist_set_all`. -/
def setPayloads : List PayloadList → Buf
  | [] => []
  | ptr :: next =>
    payload ((next.head?.map fun ptr => ptr.payloadType.toNat).getD ISAKMP_NPTYPE_NONE) ptr.payload ++
      setPayloads next

/-- The message of a list that starts with `first`. -/
def isakmpPlistSetAll (iph1 : Ph1handle) (etype : UInt8) (first : PayloadList) (next : List PayloadList) : Buf :=
  setIsakmpHeader iph1 first.payloadType etype (ISAKMP_LEN + (setPayloads (first :: next)).length) ++
    setPayloads (first :: next)

/-! ### What is claimed -/

/-- Payloads one after the other in the first `total` bytes, each of the type that the one
    in front of it announces. -/
def Chained (mem : Buf) (total : ℤ) : ℕ → ℕ → List Slot → Prop
  | np, gen, [] => np = ISAKMP_NPTYPE_NONE ∨ total ≤ gen
  | np, gen, s :: slots =>
    np ≠ ISAKMP_NPTYPE_NONE ∧ s = { type := np, ptr := some gen, len := shortAt mem (gen + 2) } ∧
      GEN_LEN ≤ s.len ∧ (gen : ℤ) + s.len ≤ total ∧
      Chained mem total (byteAt mem gen).toNat (gen + s.len) slots

/-- The parser ends, inside its array, and what it returns is a chain and its end. -/
def Sound (np : ℕ) (mem : Buf) (total : ℤ) (found : List Slot) (gen : ℕ) : Parsed → Prop
  | .unfinished => False
  | .overrun => False
  | .null => True
  | .result slots => ∃ pays more, slots = found ++ (pays ++ slotNone :: more) ∧ Chained mem total np gen pays

/-- Type and body of a payload found. -/
def Slot.read (mem : Buf) (s : Slot) : ℕ × Buf := (s.type, bytesAt mem (s.ptr.getD 0 + GEN_LEN) (s.len - GEN_LEN))

/-- The message of the list is read as the list. -/
def RoundTrips (iph1 : Ph1handle) (etype : UInt8) (first : PayloadList) (next : List PayloadList) : Prop :=
  ∃ pays more, parseMessage (isakmpPlistSetAll iph1 etype first next) = .result (pays ++ slotNone :: more) ∧
    pays.map (Slot.read ((isakmpPlistSetAll iph1 etype first next).drop ISAKMP_LEN)) =
      (first :: next).map fun ptr => (ptr.payloadType.toNat, ptr.payload)

/-! ### The array -/

section Array
variable {mem : Buf}

theorem set_found (found free : List Slot) (hfree : 0 < free.length) (s : Slot) :
    (found ++ free).set found.length s = (found ++ [s]) ++ free.tail := by
  cases free with
  | nil => exact absurd hfree (Nat.lt_irrefl 0)
  | cons x free => simp

/-- There are two free slots again behind each payload. -/
theorem room_found (found free : List Slot) (hfree : 2 ≤ free.length) (s : Slot) :
    ∃ free', room ((found ++ free).set found.length s) (found.length + 1) = (found ++ [s]) ++ free' ∧
      2 ≤ free'.length := by
  rw [set_found found free (by omega), room]
  split
  · refine ⟨free.tail ++ List.replicate ((found ++ [s]) ++ free.tail).length slotNone, by simp, ?_⟩
    simp only [List.length_append, List.length_replicate, List.length_tail, List.length_singleton]
    omega
  · rename_i hroom
    refine ⟨free.tail, rfl, ?_⟩
    simp only [List.length_append, List.length_tail, List.length_singleton] at hroom ⊢
    omega

/-- Every round leaves fewer bytes, and the array has room for what it finds. -/
theorem loop_sound (k np gen : ℕ) (tlen : ℤ) (found free : List Slot) (hfree : 2 ≤ free.length) (hk : tlen < k)
    (hpos : 0 < k) :
    Sound np mem (gen + tlen) found gen (parsewohLoop mem k np gen tlen (found ++ free) found.length) := by
  induction k generalizing np gen tlen found free with
  | zero => exact absurd hpos (Nat.lt_irrefl 0)
  | succ k ih =>
    rw [parsewohLoop]
    by_cases hend : ¬ 0 < tlen ∨ np = ISAKMP_NPTYPE_NONE
    · rw [if_pos hend, if_pos (by rw [List.length_append]; omega), set_found found free (by omega)]
      refine ⟨[], free.tail, by simp, ?_⟩
      obtain hend | hend := hend
      · exact Or.inr (by omega)
      · exact Or.inl hend
    rw [if_neg hend]
    by_cases hshort : tlen ≤ GEN_LEN
    · rw [if_pos hshort]
      trivial
    rw [if_neg hshort, if_neg (by rw [List.length_append]; omega)]
    dsimp only
    by_cases hplen : shortAt mem (gen + 2) < GEN_LEN ∨ tlen < shortAt mem (gen + 2)
    · rw [if_pos hplen]
      trivial
    rw [if_neg hplen]
    obtain ⟨free', hroom, hfree'⟩ :=
      room_found found free hfree { type := np, ptr := some gen, len := shortAt mem (gen + 2) }
    rw [hroom]
    have hgen : GEN_LEN = 4 := rfl
    have hrest := ih (byteAt mem gen).toNat (gen + shortAt mem (gen + 2)) (tlen - shortAt mem (gen + 2))
      (found ++ [{ type := np, ptr := some gen, len := shortAt mem (gen + 2) }]) free' hfree' (by omega) (by omega)
    rw [List.length_append, List.length_singleton] at hrest
    have htotal : ((gen + shortAt mem (gen + 2) : ℕ) : ℤ) + (tlen - shortAt mem (gen + 2)) = gen + tlen := by
      omega
    rw [htotal] at hrest
    revert hrest
    cases parsewohLoop mem k (byteAt mem gen).toNat (gen + shortAt mem (gen + 2)) (tlen - shortAt mem (gen + 2))
      (found ++ [{ type := np, ptr := some gen, len := shortAt mem (gen + 2) }] ++ free') (found.length + 1) with
    | unfinished => exact id
    | overrun => exact id
    | null => exact id
    | result slots =>
      rintro ⟨pays, more, hslots, hchain⟩
      refine ⟨{ type := np, ptr := some gen, len := shortAt mem (gen + 2) } :: pays, more, by simp [hslots], ?_⟩
      obtain ⟨hlong, hinside⟩ := not_or.mp hplen
      exact ⟨(not_or.mp hend).2, rfl, Nat.le_of_not_lt hlong, by dsimp only; omega, hchain⟩

end Array

/-! ### The chain that is written -/

/-- The type of the first payload. -/
def typeOf (items : List PayloadList) : ℕ :=
  (items.head?.map fun ptr => ptr.payloadType.toNat).getD ISAKMP_NPTYPE_NONE

theorem typeOf_lt (items : List PayloadList) : typeOf items < 256 := by
  cases items with
  | nil => decide
  | cons ptr next => exact ptr.payloadType.toNat_lt

section Items
variable {mem : Buf} (ptr : PayloadList) (next : List PayloadList)

theorem setPayloads_length : (setPayloads (ptr :: next)).length =
    GEN_LEN + ptr.payload.length + (setPayloads next).length := by
  rw [setPayloads, List.length_append, Proposal.payload_length]

variable {ptr next} {gen : ℕ} (hmem : mem.drop gen = setPayloads (ptr :: next))
include hmem

theorem header_items : (byteAt mem gen).toNat = typeOf next ∧ shortAt mem (gen + 2) = GEN_LEN + ptr.payload.length := by
  have hfits := ptr.fits
  have hgen : GEN_LEN = 4 := rfl
  have hheader := Proposal.payload_header (typeOf next) ptr.payload (setPayloads next) (typeOf_lt next) (by omega)
  have hsplit : payload (typeOf next) ptr.payload ++ setPayloads next = mem.drop gen := hmem.symm
  rw [hsplit] at hheader
  simpa [byteAt, shortAt, Nat.add_assoc] using hheader

theorem drop_items : mem.drop (gen + (GEN_LEN + ptr.payload.length)) = setPayloads next := by
  rw [← List.drop_drop, hmem]
  exact List.drop_left' (Proposal.payload_length _ _)

theorem read_items : Slot.read mem { type := ptr.payloadType.toNat, ptr := some gen, len := GEN_LEN + ptr.payload.length } =
    (ptr.payloadType.toNat, ptr.payload) := by
  have hbody : bytesAt mem (gen + GEN_LEN) ptr.payload.length = ptr.payload := by
    have hsplit : payload (typeOf next) ptr.payload ++ setPayloads next =
        ([UInt8.ofNat (typeOf next), 0] ++ short (GEN_LEN + ptr.payload.length)) ++
          (ptr.payload ++ setPayloads next) := by
      simp [payload]
    have hdrop : (([UInt8.ofNat (typeOf next), 0] ++ short (GEN_LEN + ptr.payload.length)) ++
        (ptr.payload ++ setPayloads next)).drop GEN_LEN = ptr.payload ++ setPayloads next := List.drop_left' rfl
    have hgenMem : mem.drop gen = payload (typeOf next) ptr.payload ++ setPayloads next := hmem
    rw [bytesAt, ← List.drop_drop, hgenMem, hsplit, hdrop, List.take_left]
  rw [Slot.read, Nat.add_sub_cancel_left]
  exact congrArg _ hbody

/-- A round over a payload, where it or what follows it is not empty. -/
theorem loop_round (k : ℕ) (found free : List Slot) (hfree : 2 ≤ free.length)
    (hlong : 0 < ptr.payload.length + (setPayloads next).length) :
    ∃ free', 2 ≤ free'.length ∧
      parsewohLoop mem (k + 1) ptr.payloadType.toNat gen (setPayloads (ptr :: next)).length (found ++ free) found.length =
        parsewohLoop mem k (typeOf next) (gen + (GEN_LEN + ptr.payload.length)) (setPayloads next).length
          (found ++ [{ type := ptr.payloadType.toNat, ptr := some gen, len := GEN_LEN + ptr.payload.length }] ++ free')
          (found.length + 1) := by
  obtain ⟨htype, hplen⟩ := header_items hmem
  obtain ⟨free', hroom, hfree'⟩ := room_found found free hfree
    { type := ptr.payloadType.toNat, ptr := some gen, len := GEN_LEN + ptr.payload.length }
  have hgen : GEN_LEN = 4 := rfl
  have hgo : ¬ (¬ (0 : ℤ) < (setPayloads (ptr :: next)).length ∨ ptr.payloadType.toNat = ISAKMP_NPTYPE_NONE) := by
    rintro (h | h)
    · rw [setPayloads_length] at h
      omega
    · exact ptr.type_ne (UInt8.toNat_inj.mp h)
  have hrest : ((setPayloads (ptr :: next)).length : ℤ) - (GEN_LEN + ptr.payload.length : ℕ) =
      (setPayloads next).length := by
    rw [setPayloads_length]
    omega
  refine ⟨free', hfree', ?_⟩
  rw [parsewohLoop, if_neg hgo, if_neg (by rw [setPayloads_length]; omega),
    if_neg (by rw [List.length_append]; omega), hplen]
  dsimp only
  rw [if_neg (by rw [setPayloads_length]; omega), hroom, htype, hrest]

end Items

/-- A chain whose last payload is not empty is found as it was written. -/
theorem loop_items (items : List PayloadList) (hlast : ∀ ptr, items.getLast? = some ptr → ptr.payload ≠ [])
    {mem : Buf} {gen : ℕ} (hmem : mem.drop gen = setPayloads items) (k : ℕ) (found free : List Slot)
    (hfree : 2 ≤ free.length) (hk : (setPayloads items).length < k) :
    ∃ pays more, parsewohLoop mem k (typeOf items) gen (setPayloads items).length (found ++ free) found.length =
        .result (found ++ (pays ++ slotNone :: more)) ∧
      pays.map (Slot.read mem) = items.map fun ptr => (ptr.payloadType.toNat, ptr.payload) := by
  induction items generalizing gen k found free with
  | nil =>
    obtain ⟨k, rfl⟩ : ∃ j, k = j + 1 := ⟨k - 1, by omega⟩
    refine ⟨[], free.tail, ?_, rfl⟩
    have hnone : typeOf [] = ISAKMP_NPTYPE_NONE := rfl
    rw [parsewohLoop, if_pos (Or.inr hnone), if_pos (by rw [List.length_append]; omega),
      set_found found free (by omega)]
    simp
  | cons ptr next ih =>
    obtain ⟨k, rfl⟩ : ∃ j, k = j + 1 := ⟨k - 1, by omega⟩
    rw [setPayloads_length] at hk
    have hgen : GEN_LEN = 4 := rfl
    have hlong : 0 < ptr.payload.length + (setPayloads next).length := by
      cases next with
      | nil =>
        have hne := List.length_pos_iff.mpr (hlast ptr rfl)
        omega
      | cons after next =>
        rw [setPayloads_length]
        omega
    have hnext : ∀ p, next.getLast? = some p → p.payload ≠ [] := by
      intro p hp
      apply hlast p
      rw [List.getLast?_cons, hp]
      rfl
    obtain ⟨free', hfree', hround⟩ := loop_round hmem k found free hfree hlong
    obtain ⟨pays, more, hloop, hread⟩ := ih hnext (drop_items hmem) k
      (found ++ [{ type := ptr.payloadType.toNat, ptr := some gen, len := GEN_LEN + ptr.payload.length }]) free' hfree'
      (by omega)
    rw [List.length_append, List.length_singleton] at hloop
    refine ⟨{ type := ptr.payloadType.toNat, ptr := some gen, len := GEN_LEN + ptr.payload.length } :: pays, more, ?_, ?_⟩
    · change parsewohLoop mem (k + 1) ptr.payloadType.toNat gen _ _ _ = _
      rw [hround, hloop]
      simp
    · rw [List.map_cons, read_items hmem, hread, List.map_cons]

/-- A chain that ends with an empty payload is refused. -/
theorem loop_empty (items : List PayloadList) (hlast : ∃ ptr, items.getLast? = some ptr ∧ ptr.payload = [])
    {mem : Buf} {gen : ℕ} (hmem : mem.drop gen = setPayloads items) (k : ℕ) (found free : List Slot)
    (hfree : 2 ≤ free.length) (hk : (setPayloads items).length < k) :
    parsewohLoop mem k (typeOf items) gen (setPayloads items).length (found ++ free) found.length = .null := by
  induction items generalizing gen k found free with
  | nil =>
    obtain ⟨ptr, hptr, -⟩ := hlast
    cases hptr
  | cons ptr next ih =>
    obtain ⟨k, rfl⟩ : ∃ j, k = j + 1 := ⟨k - 1, by omega⟩
    rw [setPayloads_length] at hk
    have hgen : GEN_LEN = 4 := rfl
    cases next with
    | nil =>
      obtain ⟨last, hptr, hempty⟩ := hlast
      have hlast : ptr = last := Option.some.inj hptr
      rw [← hlast] at hempty
      have hgo : ¬ (¬ (0 : ℤ) < (setPayloads [ptr]).length ∨ typeOf [ptr] = ISAKMP_NPTYPE_NONE) := by
        rintro (h | h)
        · rw [setPayloads_length] at h
          omega
        · exact ptr.type_ne (UInt8.toNat_inj.mp h)
      have hfour : ((setPayloads [ptr]).length : ℤ) ≤ GEN_LEN := by
        rw [setPayloads_length, hempty]
        decide
      rw [parsewohLoop, if_neg hgo, if_pos hfour]
    | cons after next =>
      have hlong : 0 < ptr.payload.length + (setPayloads (after :: next)).length := by
        rw [setPayloads_length]
        omega
      obtain ⟨free', hfree', hround⟩ := loop_round hmem k found free hfree hlong
      change parsewohLoop mem (k + 1) ptr.payloadType.toNat gen _ _ _ = _
      rw [hround]
      have hrest := ih hlast (drop_items hmem) k
        (found ++ [{ type := ptr.payloadType.toNat, ptr := some gen, len := GEN_LEN + ptr.payload.length }]) free' hfree'
        (by omega)
      rw [List.length_append, List.length_singleton] at hrest
      exact hrest

/-! ### The codec -/

theorem parsewoh_sound (np0 : ℕ) (mem : Buf) (len : ℤ) : Sound (np0 % 256) mem len [] 0 (parsewoh np0 mem len) := by
  have hsound := @loop_sound mem (len.toNat + 1) (np0 % 256) 0 len [] (List.replicate 5 slotNone) (by decide)
    (by omega) (by omega)
  rw [Nat.cast_zero, Int.zero_add] at hsound
  exact hsound

/-- What is found does not go beyond the bytes that are there. -/
theorem chained_size {mem : Buf} {total : ℤ} {np gen : ℕ} {pays : List Slot} (h : Chained mem total np gen pays)
    (hne : pays ≠ []) (items : List PayloadList)
    (hread : pays.map (Slot.read mem) = items.map fun ptr => (ptr.payloadType.toNat, ptr.payload)) :
    (gen : ℤ) + (setPayloads items).length ≤ total := by
  induction items generalizing np gen pays with
  | nil => exact absurd (List.map_eq_nil_iff.mp hread) hne
  | cons ptr next ih =>
    cases pays with
    | nil => exact absurd rfl hne
    | cons s pays =>
      obtain ⟨-, -, hlong, hinside, hrest⟩ := h
      rw [List.map_cons, List.map_cons] at hread
      obtain ⟨hs, hnext⟩ := List.cons.inj hread
      have hbody : ptr.payload.length ≤ s.len - GEN_LEN := by
        have hbytes : bytesAt mem (s.ptr.getD 0 + GEN_LEN) (s.len - GEN_LEN) = ptr.payload := congrArg Prod.snd hs
        rw [← hbytes, bytesAt, List.length_take]
        exact Nat.min_le_left _ _
      rw [setPayloads_length]
      by_cases hempty : pays = []
      · subst hempty
        obtain rfl : next = [] := List.map_eq_nil_iff.mp hnext.symm
        change (gen : ℤ) + (GEN_LEN + ptr.payload.length + 0 : ℕ) ≤ total
        omega
      · have hsize := ih hrest hempty hnext
        omega

/-- The first slot of no type ends what is found. -/
theorem found_unique {pays pays' more more' : List Slot} (h : ∀ s ∈ pays, s.type ≠ ISAKMP_NPTYPE_NONE)
    (h' : ∀ s ∈ pays', s.type ≠ ISAKMP_NPTYPE_NONE)
    (heq : pays ++ slotNone :: more = pays' ++ slotNone :: more') : pays = pays' := by
  have hfront : ∀ (xs ys : List Slot), (∀ s ∈ xs, s.type ≠ ISAKMP_NPTYPE_NONE) →
      (xs ++ slotNone :: ys).takeWhile (fun s => s.type ≠ ISAKMP_NPTYPE_NONE) = xs := by
    intro xs ys hxs
    rw [List.takeWhile_append_of_pos (by simpa using hxs)]
    simp [slotNone]
  rw [← hfront pays more h, heq, hfront pays' more' h']

theorem chained_types {mem : Buf} {total : ℤ} {np gen : ℕ} {pays : List Slot} (h : Chained mem total np gen pays) :
    ∀ s ∈ pays, s.type ≠ ISAKMP_NPTYPE_NONE := by
  induction pays generalizing np gen with
  | nil => simp
  | cons s pays ih =>
    obtain ⟨hnp, hs, -, -, hrest⟩ := h
    intro s' hs'
    obtain rfl | hs' := List.mem_cons.mp hs'
    · rw [hs]
      exact hnp
    · exact ih hrest s' hs'

theorem toInt_lt (n : ℤ) : toInt n < 2147483648 := by
  unfold toInt
  omega

theorem toInt_of_lt {n : ℕ} (h : n < 2147483648) : toInt n = n := by
  unfold toInt
  omega

/-- What is read of the message is no longer than an `int` can say. -/
theorem size_of_read {items : List PayloadList} {np0 : ℕ} {mem : Buf} {len : ℤ} {pays more : List Slot}
    (hparse : parsewoh np0 mem len = .result (pays ++ slotNone :: more)) (hne : items ≠ [])
    (hread : pays.map (Slot.read mem) = items.map fun ptr => (ptr.payloadType.toNat, ptr.payload)) :
    ((setPayloads items).length : ℤ) ≤ len := by
  have hsound := parsewoh_sound np0 mem len
  rw [hparse] at hsound
  obtain ⟨pays', more', hslots, hchain⟩ := hsound
  have htypes : ∀ s ∈ pays, s.type ≠ ISAKMP_NPTYPE_NONE := by
    intro s hs
    have hmem : Slot.read mem s ∈ items.map fun ptr => (ptr.payloadType.toNat, ptr.payload) := by
      rw [← hread]
      exact List.mem_map_of_mem hs
    obtain ⟨ptr, -, hptr⟩ := List.mem_map.mp hmem
    have htype : ptr.payloadType.toNat = s.type := congrArg Prod.fst hptr
    rw [← htype]
    exact fun h0 => ptr.type_ne (UInt8.toNat_inj.mp h0)
  have hsame : pays = pays' := found_unique htypes (chained_types hchain) hslots
  rw [← hsame] at hchain
  have hpays : pays ≠ [] := by
    intro hnil
    rw [hnil] at hread
    exact hne (List.map_eq_nil_iff.mp hread.symm)
  have hbound := chained_size hchain hpays items hread
  rw [Nat.cast_zero, Int.zero_add] at hbound
  exact hbound

section Message
variable (iph1 : Ph1handle) (etype : UInt8) (first : PayloadList) (next : List PayloadList)

theorem message_drop : (isakmpPlistSetAll iph1 etype first next).drop ISAKMP_LEN = setPayloads (first :: next) :=
  List.drop_left' (setIsakmpHeader_length iph1 _ etype _)

theorem message_length : (isakmpPlistSetAll iph1 etype first next).length =
    ISAKMP_LEN + (setPayloads (first :: next)).length := by
  rw [isakmpPlistSetAll, List.length_append, setIsakmpHeader_length]

theorem message_np : byteAt (isakmpPlistSetAll iph1 etype first next) ISAKMP_NP = first.payloadType := by
  have hfront : (iph1.i_ck.toList ++ iph1.r_ck.toList).length = ISAKMP_NP := by simp [ISAKMP_NP]
  rw [isakmpPlistSetAll, setIsakmpHeader]
  simp only [List.append_assoc]
  rw [← List.append_assoc]
  exact Proposal.byteAt_at _ _ _ _ hfront.symm

theorem parseMessage_eq : parseMessage (isakmpPlistSetAll iph1 etype first next) =
    parsewoh (typeOf (first :: next)) (setPayloads (first :: next)) (toInt (setPayloads (first :: next)).length) := by
  have hlen : ((isakmpPlistSetAll iph1 etype first next).length : ℤ) - ISAKMP_LEN =
      (setPayloads (first :: next)).length := by
    rw [message_length]
    omega
  rw [parseMessage, message_np, message_drop, hlen]
  rfl

theorem roundTrips_of (hlast : (first :: next).getLast?.all fun ptr => ptr.payload ≠ [])
    (hsize : (setPayloads (first :: next)).length < 2147483648) : RoundTrips iph1 etype first next := by
  have hne : ∀ ptr, (first :: next).getLast? = some ptr → ptr.payload ≠ [] := by
    intro ptr hptr
    rw [hptr] at hlast
    simpa using hlast
  obtain ⟨pays, more, hloop, hread⟩ := loop_items (first :: next) hne (List.drop_zero)
    ((setPayloads (first :: next)).length + 1) [] (List.replicate 5 slotNone) (by decide) (Nat.lt_succ_self _)
  refine ⟨pays, more, ?_, ?_⟩
  · rw [parseMessage_eq, toInt_of_lt hsize, parsewoh, Int.toNat_natCast, Nat.mod_eq_of_lt (typeOf_lt _)]
    exact hloop
  · rw [message_drop]
    exact hread

theorem of_roundTrips (h : RoundTrips iph1 etype first next) :
    (first :: next).getLast?.all (fun ptr => ptr.payload ≠ []) ∧ (setPayloads (first :: next)).length < 2147483648 := by
  obtain ⟨pays, more, hparse, hread⟩ := h
  rw [parseMessage_eq] at hparse
  rw [message_drop] at hread
  have hsize : (setPayloads (first :: next)).length < 2147483648 := by
    have hbound := size_of_read hparse (List.cons_ne_nil first next) hread
    exact Int.ofNat_lt.mp (lt_of_le_of_lt hbound (toInt_lt _))
  refine ⟨?_, hsize⟩
  by_contra hlast
  obtain ⟨ptr, hptr⟩ : ∃ ptr, (first :: next).getLast? = some ptr := ⟨_, List.getLast?_eq_some_getLast (by simp)⟩
  have hempty : ptr.payload = [] := by
    rw [hptr] at hlast
    simpa using hlast
  have hnull := loop_empty (first :: next) ⟨ptr, hptr, hempty⟩ (List.drop_zero)
    ((setPayloads (first :: next)).length + 1) [] (List.replicate 5 slotNone) (by decide) (Nat.lt_succ_self _)
  rw [toInt_of_lt hsize, parsewoh, Int.toNat_natCast, Nat.mod_eq_of_lt (typeOf_lt _)] at hparse
  cases hnull.symm.trans hparse

end Message

/-- The parser is sound on any bytes. A list of payloads is read from its message exactly
    if the last is not empty and an `int` holds their size. -/
theorem codec_iff (np0 : ℕ) (mem : Buf) (len : ℤ) (iph1 : Ph1handle) (etype : UInt8) (first : PayloadList)
    (next : List PayloadList) :
    Sound (np0 % 256) mem len [] 0 (parsewoh np0 mem len) ∧
      (RoundTrips iph1 etype first next ↔
        (first :: next).getLast?.all (fun ptr => ptr.payload ≠ []) ∧
          (setPayloads (first :: next)).length < 2147483648) := by
  refine ⟨parsewoh_sound np0 mem len, ?_⟩
  constructor
  · exact of_roundTrips iph1 etype first next
  · rintro ⟨hlast, hsize⟩
    exact roundTrips_of iph1 etype first next hlast hsize

/-- A VENDOR ID without a body. -/
def emptyVid : PayloadList where
  payloadType := 13
  payload := []
  type_ne := by decide
  fits := by decide

def someHandle : Ph1handle where
  i_ck := Vector.replicate 8 1
  r_ck := Vector.replicate 8 2
  version := 16
  flags := 0
  msgid := Vector.replicate 4 0

/-- The last four bytes are taken for too few. -/
theorem empty_last_refused : ¬ RoundTrips someHandle 2 emptyVid [] := by
  intro h
  exact absurd (of_roundTrips someHandle 2 emptyVid [] h).1 (by decide)

end WanStack.Racoon.Codec
