import WanStack.Aftr.Bytes
import WanStack.Lib.PartialRun

set_option autoImplicit false

/-!
# IKE fragmentation

`isakmp_sendfrags` cuts a message into packets; `isakmp_frag_extract` and
`isakmp_frag_reassembly` collect them on the chain of a phase 1 handle.
-/
namespace WanStack.Racoon
open Aftr (Buf byteAt bytesAt shortAt hi lo)

def ISAKMP_FRAG_MAXLEN : ℕ := 552
def ISAKMP_FRAG_LAST : UInt8 := 1
def ISAKMP_NPTYPE_FRAG : UInt8 := 132

/-- The sizes of `struct isakmp`, `struct isakmp_frag` and of the trailer. -/
def ISAKMP_LEN : ℕ := 28
def FRAGHDR_LEN : ℕ := 8
def TRAILER_LEN : ℕ := 4

/-- Where the fields lie in a packet. -/
def ISAKMP_ETYPE : ℕ := 18
def FRAG_LEN : ℕ := 30
def FRAG_INDEX : ℕ := 34
def FRAG_FLAGS : ℕ := 35

/-- What a phase 1 handle puts into a header. -/
structure Ph1handle where
  i_ck : Vector UInt8 8
  r_ck : Vector UInt8 8
  version : UInt8
  flags : UInt8
  msgid : Vector UInt8 4

structure FragItem where
  fragNum : ℕ
  fragLast : Bool
  fragPacket : Buf
deriving DecidableEq, Repr

def short (n : ℕ) : Buf := [hi n, lo n]

def setIsakmpHeader (iph1 : Ph1handle) (nptype etype : UInt8) (l : ℕ) : Buf :=
  iph1.i_ck.toList ++ iph1.r_ck.toList ++ [nptype, iph1.version, etype, iph1.flags] ++
    iph1.msgid.toList ++ (short (l / 65536) ++ short l)

def maxDatalen : ℕ := ISAKMP_FRAG_MAXLEN - (ISAKMP_LEN + FRAGHDR_LEN + TRAILER_LEN)

/-- One fragment; `index` is a byte. -/
def fragment (iph1 : Ph1handle) (etype : UInt8) (fragnum : ℕ) (last : Bool) (data : Buf) : Buf :=
  let fraglen := ISAKMP_LEN + FRAGHDR_LEN + data.length
  setIsakmpHeader iph1 ISAKMP_NPTYPE_FRAG etype fraglen ++
    (short 0 ++ short (fraglen - ISAKMP_LEN) ++ short 1 ++
      [UInt8.ofNat fragnum, if last then ISAKMP_FRAG_LAST else 0]) ++ data

/-- The loop of `isakmp_sendfrags`, with a bound on its rounds. -/
def sendLoop (iph1 : Ph1handle) (etype : UInt8) : ℕ → ℕ → Buf → List Buf
  | 0, _, _ => []
  | k + 1, fragnum, sdata =>
    if sdata = [] then [] else
      let data := sdata.take maxDatalen
      fragment iph1 etype (fragnum + 1) (data.length = sdata.length) data ::
        sendLoop iph1 etype k (fragnum + 1) (sdata.drop maxDatalen)

/-- The packets sent for a message; every round takes a byte at least. -/
def isakmpSendfrags (iph1 : Ph1handle) (buf : Buf) : List Buf :=
  sendLoop iph1 (byteAt buf ISAKMP_ETYPE) buf.length 0 buf

/-- The walk to the end of the chain: all items but the one at the end are
    visited, and the number taken is that of the new item. -/
def walk (num : ℕ) : List FragItem → ℕ → ℕ
  | current :: next :: rest, lastFrag =>
    walk num (next :: rest) (if current.fragLast then num else lastFrag)
  | _, lastFrag => lastFrag

/-- Whether each of the first `lastFrag` numbers is on the chain. -/
def chainComplete (chain : List FragItem) (lastFrag : ℕ) : Bool :=
  (List.range lastFrag).all fun i => chain.any fun item => item.fragNum = i + 1

/-- `isakmp_frag_extract`: the chain and the value returned. -/
def isakmpFragExtract (mem : Bool) (chain : List FragItem) (msg : Buf) : List FragItem × ℤ :=
  let len := shortAt msg FRAG_LEN
  if msg.length < ISAKMP_LEN + FRAGHDR_LEN then (chain, -1)
  else if msg.length < ISAKMP_LEN + len ∨ len < FRAGHDR_LEN + 1 then (chain, -1)
  else if !mem then (chain, -1) else
    let item : FragItem :=
      { fragNum := (byteAt msg FRAG_INDEX).toNat
        fragLast := byteAt msg FRAG_FLAGS &&& ISAKMP_FRAG_LAST != 0
        fragPacket := bytesAt msg (ISAKMP_LEN + FRAGHDR_LEN) (len - FRAGHDR_LEN) }
    let lastFrag := walk item.fragNum chain (if item.fragLast then item.fragNum else 0)
    let chain := chain ++ [item]
    (chain, if lastFrag ≠ 0 && chainComplete chain lastFrag then 1 else 0)

/-- `isakmp_frag_reassembly`: one packet for each item of the chain. -/
def isakmpFragReassembly (mem : Bool) (chain : List FragItem) : List FragItem × Option Buf :=
  ([], if chain = [] || !mem then none else
    ((List.range chain.length).mapM fun i =>
      (chain.find? fun item => item.fragNum = i + 1).map FragItem.fragPacket).map List.flatten)

/-- `frag_handler` up to `isakmp_main`: the new chain and the new message. -/
def fragHandler (mem : Bool) (chain : List FragItem) (msg : Buf) : List FragItem × Option Buf :=
  let (chain, r) := isakmpFragExtract mem chain msg
  if r = 1 then isakmpFragReassembly mem chain else (chain, none)

/-! ### What is sent -/

/-- The data of a fragment. -/
def chunk (buf : Buf) (k : ℕ) : Buf := (buf.drop (maxDatalen * k)).take maxDatalen

theorem maxDatalen_eq : maxDatalen = 512 := rfl

theorem sendLoop_get (iph1 : Ph1handle) (etype : UInt8) (k fragnum : ℕ) (sdata : Buf)
    (hk : sdata.length ≤ k) (i : ℕ) :
    (sendLoop iph1 etype k fragnum sdata)[i]? =
      if maxDatalen * i < sdata.length then
        some (fragment iph1 etype (fragnum + i + 1) (sdata.length ≤ maxDatalen * (i + 1))
          (chunk sdata i))
      else none := by
  induction k generalizing fragnum sdata i with
  | zero =>
    have hnil : sdata.length = 0 := by omega
    simp [sendLoop, hnil]
  | succ k ih =>
    unfold sendLoop
    by_cases hnil : sdata = []
    · simp [hnil]
    have hpos : 0 < sdata.length := List.length_pos_of_ne_nil hnil
    rw [if_neg hnil]
    cases i with
    | zero =>
      simp only [List.getElem?_cons_zero, Nat.mul_zero, if_pos hpos, chunk, List.drop_zero,
        List.length_take, maxDatalen_eq]
      congr 2
      simp
    | succ i =>
      have hlen : (sdata.drop maxDatalen).length ≤ k := by
        rw [List.length_drop, maxDatalen_eq]
        omega
      rw [List.getElem?_cons_succ, ih (fragnum + 1) (sdata.drop maxDatalen) hlen i]
      simp only [List.length_drop, chunk, List.drop_drop, maxDatalen_eq]
      have h1 : fragnum + 1 + i + 1 = fragnum + (i + 1) + 1 := by omega
      have h2 : 512 + 512 * i = 512 * (i + 1) := by omega
      have h3 : decide (sdata.length - 512 ≤ 512 * (i + 1)) =
          decide (sdata.length ≤ 512 * (i + 1 + 1)) := by
        apply decide_eq_decide.2
        omega
      rw [h1, h2, h3]
      apply if_congr _ rfl rfl
      omega

/-! ### What is received -/

/-- The item made of a fragment that was sent. -/
def itemOf (buf : Buf) (k : ℕ) : FragItem :=
  { fragNum := k + 1
    fragLast := buf.length ≤ maxDatalen * (k + 1)
    fragPacket := chunk buf k }

theorem isakmpSendfrags_get (iph1 : Ph1handle) (buf : Buf) (k : ℕ) :
    (isakmpSendfrags iph1 buf)[k]? =
      if maxDatalen * k < buf.length then
        some (fragment iph1 (byteAt buf ISAKMP_ETYPE) (k + 1) (itemOf buf k).fragLast
          (chunk buf k))
      else none := by
  unfold isakmpSendfrags
  rw [sendLoop_get _ _ _ _ _ le_rfl, Nat.zero_add]
  rfl

theorem lt_isakmpSendfrags (iph1 : Ph1handle) (buf : Buf) (k : ℕ) :
    k < (isakmpSendfrags iph1 buf).length ↔ maxDatalen * k < buf.length := by
  have h := isakmpSendfrags_get iph1 buf k
  split_ifs at h with hk
  · exact ⟨fun _ => hk, fun _ => (List.getElem?_eq_some_iff.1 h).1⟩
  · exact ⟨fun hl => absurd (List.getElem?_eq_none_iff.1 h) (by omega), fun hl => absurd hl hk⟩

theorem walk_eq (num : ℕ) (chain : List FragItem) (lastFrag : ℕ) :
    walk num chain lastFrag =
      if chain.dropLast.any FragItem.fragLast then num else lastFrag := by
  induction chain generalizing lastFrag with
  | nil => rfl
  | cons current rest ih =>
    cases rest with
    | nil => rfl
    | cons next rest =>
      rw [walk, ih, List.dropLast_cons_cons, List.any_cons]
      cases current.fragLast <;> simp

theorem setIsakmpHeader_length (iph1 : Ph1handle) (nptype etype : UInt8) (l : ℕ) :
    (setIsakmpHeader iph1 nptype etype l).length = ISAKMP_LEN := by
  simp [setIsakmpHeader, short, ISAKMP_LEN]

theorem chunk_length (buf : Buf) (k : ℕ) :
    (chunk buf k).length = min maxDatalen (buf.length - maxDatalen * k) := by
  simp [chunk]

/-- The bytes of the fragment header. -/
theorem fragment_byteAt (iph1 : Ph1handle) (etype : UInt8) (fragnum : ℕ) (last : Bool)
    (data : Buf) (i : ℕ) (h : i < FRAGHDR_LEN) :
    byteAt (fragment iph1 etype fragnum last data) (ISAKMP_LEN + i) =
      byteAt (short 0 ++ short (FRAGHDR_LEN + data.length) ++ short 1 ++
        [UInt8.ofNat fragnum, if last then ISAKMP_FRAG_LAST else 0]) i := by
  have hlen := setIsakmpHeader_length iph1 ISAKMP_NPTYPE_FRAG etype
    (ISAKMP_LEN + FRAGHDR_LEN + data.length)
  have hsub : ISAKMP_LEN + FRAGHDR_LEN + data.length - ISAKMP_LEN =
      FRAGHDR_LEN + data.length := by omega
  unfold fragment
  simp only [hsub]
  rw [Aftr.byteAt_append_left, Aftr.byteAt_append_right, hlen, Nat.add_sub_cancel_left]
  · omega
  · rw [List.length_append, hlen]
    exact Nat.add_lt_add_left h _

theorem fragment_length (iph1 : Ph1handle) (etype : UInt8) (fragnum : ℕ) (last : Bool)
    (data : Buf) :
    (fragment iph1 etype fragnum last data).length = ISAKMP_LEN + FRAGHDR_LEN + data.length := by
  simp only [fragment, List.length_append, setIsakmpHeader_length, short, List.length_cons,
    List.length_nil]
  rfl

theorem fragment_data (iph1 : Ph1handle) (etype : UInt8) (fragnum : ℕ) (last : Bool)
    (data : Buf) :
    bytesAt (fragment iph1 etype fragnum last data) (ISAKMP_LEN + FRAGHDR_LEN) data.length =
      data := by
  have hlen := setIsakmpHeader_length iph1 ISAKMP_NPTYPE_FRAG etype
    (ISAKMP_LEN + FRAGHDR_LEN + data.length)
  unfold bytesAt fragment
  rw [List.drop_left', List.take_length]
  simp only [List.length_append, hlen, short, List.length_cons, List.length_nil]
  rfl

theorem fragment_len (iph1 : Ph1handle) (etype : UInt8) (fragnum : ℕ) (last : Bool)
    (data : Buf) (h : data.length ≤ maxDatalen) :
    shortAt (fragment iph1 etype fragnum last data) FRAG_LEN = FRAGHDR_LEN + data.length := by
  have h2 := fragment_byteAt iph1 etype fragnum last data 2 (by decide)
  have h3 := fragment_byteAt iph1 etype fragnum last data 3 (by decide)
  rw [maxDatalen_eq] at h
  unfold shortAt
  rw [show FRAG_LEN = ISAKMP_LEN + 2 from rfl, show ISAKMP_LEN + 2 + 1 = ISAKMP_LEN + 3 from rfl,
    h2, h3]
  change (hi (8 + data.length)).toNat * 256 + (lo (8 + data.length)).toNat = 8 + data.length
  rw [Aftr.hi_toNat (by omega), Aftr.lo_toNat]
  omega

theorem fragment_index (iph1 : Ph1handle) (etype : UInt8) (fragnum : ℕ) (last : Bool)
    (data : Buf) (h : fragnum < 256) :
    (byteAt (fragment iph1 etype fragnum last data) FRAG_INDEX).toNat = fragnum := by
  rw [show FRAG_INDEX = ISAKMP_LEN + 6 from rfl,
    fragment_byteAt iph1 etype fragnum last data 6 (by decide)]
  change (UInt8.ofNat fragnum).toNat = fragnum
  rw [UInt8.toNat_ofNat']
  omega

theorem fragment_flags (iph1 : Ph1handle) (etype : UInt8) (fragnum : ℕ) (last : Bool)
    (data : Buf) :
    (byteAt (fragment iph1 etype fragnum last data) FRAG_FLAGS &&& ISAKMP_FRAG_LAST != 0) =
      last := by
  rw [show FRAG_FLAGS = ISAKMP_LEN + 7 from rfl,
    fragment_byteAt iph1 etype fragnum last data 7 (by decide)]
  change ((if last then ISAKMP_FRAG_LAST else 0) &&& ISAKMP_FRAG_LAST != 0) = last
  cases last <;> decide

/-- What `isakmp_frag_extract` computes before its last test. -/
def lastFragOf (chain : List FragItem) (item : FragItem) : ℕ :=
  walk item.fragNum chain (if item.fragLast then item.fragNum else 0)

/-- A packet that was sent is parsed into its item. -/
theorem isakmpFragExtract_sent (iph1 : Ph1handle) (etype : UInt8) (buf : Buf) (k : ℕ)
    (hk : maxDatalen * k < buf.length) (hbyte : k + 1 < 256) (chain : List FragItem) :
    isakmpFragExtract true chain
        (fragment iph1 etype (k + 1) (itemOf buf k).fragLast (chunk buf k)) =
      (chain ++ [itemOf buf k],
        if lastFragOf chain (itemOf buf k) ≠ 0 &&
          chainComplete (chain ++ [itemOf buf k]) (lastFragOf chain (itemOf buf k))
        then 1 else 0) := by
  have hlen := chunk_length buf k
  have hle : (chunk buf k).length ≤ maxDatalen := by omega
  have hpos : 0 < (chunk buf k).length := by
    rw [maxDatalen_eq] at *
    omega
  unfold isakmpFragExtract
  simp only [fragment_len _ _ _ _ _ hle, fragment_length, fragment_index _ _ _ _ _ hbyte,
    fragment_flags, Nat.add_sub_cancel_left, fragment_data]
  rw [if_neg (by omega), if_neg (by unfold ISAKMP_LEN FRAGHDR_LEN; omega), if_neg (by decide)]
  rfl

/-! ### Arrivals -/

section Arrivals
variable (iph1 : Ph1handle) (buf : Buf)

/-- Arrivals of the fragments of a message, in their order. -/
abbrev Arrivals := List (Fin (isakmpSendfrags iph1 buf).length)

variable {iph1 buf}

/-- The chain of a handle that was empty, after some arrivals. -/
def feed (pre : Arrivals iph1 buf) : List FragItem :=
  pre.foldl (fun chain q => (fragHandler true chain ((isakmpSendfrags iph1 buf).get q)).1) []

/-- What `isakmp_frag_extract` does with one more arrival. -/
def arrive (pre : Arrivals iph1 buf) (p : Fin (isakmpSendfrags iph1 buf).length) :
    List FragItem × ℤ :=
  isakmpFragExtract true (feed pre) ((isakmpSendfrags iph1 buf).get p)

def Complete (pre : Arrivals iph1 buf) : Prop := ∀ q, q ∈ pre

instance (pre : Arrivals iph1 buf) : Decidable (Complete pre) :=
  inferInstanceAs (Decidable (∀ q, q ∈ pre))

/-- One is returned just when the arrival completes the message, and the
    reassembly then gives it back. -/
def RoundTripAt (pre : Arrivals iph1 buf) (p : Fin (isakmpSendfrags iph1 buf).length) : Prop :=
  ((arrive pre p).2 = 1 ↔ Complete (pre ++ [p])) ∧
    (Complete (pre ++ [p]) →
      isakmpFragReassembly true (arrive pre p).1 = ([], some buf))

/-- This holds of every arrival up to the completing one. -/
def RoundTrips (σ : Arrivals iph1 buf) : Prop :=
  ∀ pre p post, σ = pre ++ p :: post → ¬ Complete pre → RoundTripAt pre p

/-- The last fragment is on the chain, but not as its end. -/
def LastBehind (pre : Arrivals iph1 buf) : Prop :=
  ∃ q ∈ pre.dropLast, q.val + 1 = (isakmpSendfrags iph1 buf).length

/-- Whether one is returned. -/
def Returns (pre : Arrivals iph1 buf) (p : Fin (isakmpSendfrags iph1 buf).length) : Prop :=
  (p.val + 1 = (isakmpSendfrags iph1 buf).length ∨ LastBehind pre) ∧ ∀ q ≤ p, q ∈ pre ++ [p]

/-- The completing arrival is the last fragment or finds it behind, and no
    fragment came twice; an arrival before it that finds the last fragment
    behind leaves a hole below itself. -/
def OrderlyAt (pre : Arrivals iph1 buf) (p : Fin (isakmpSendfrags iph1 buf).length) : Prop :=
  if Complete (pre ++ [p]) then
    (p.val + 1 = (isakmpSendfrags iph1 buf).length ∨ LastBehind pre) ∧ (pre ++ [p]).Nodup
  else LastBehind pre → ∃ q < p, q ∉ pre

def Orderly (σ : Arrivals iph1 buf) : Prop :=
  ∀ pre p post, σ = pre ++ p :: post → ¬ Complete pre → OrderlyAt pre p

/-- The items of some arrivals. -/
def items (pre : Arrivals iph1 buf) : List FragItem := pre.map fun q => itemOf buf q.val

theorem sent_get (p : Fin (isakmpSendfrags iph1 buf).length) :
    maxDatalen * p.val < buf.length ∧ (isakmpSendfrags iph1 buf).get p =
      fragment iph1 (byteAt buf ISAKMP_ETYPE) (p.val + 1) (itemOf buf p.val).fragLast
        (chunk buf p.val) := by
  have hlt := (lt_isakmpSendfrags iph1 buf p.val).1 p.isLt
  have hget := isakmpSendfrags_get iph1 buf p.val
  rw [if_pos hlt, List.getElem?_eq_getElem p.isLt, Option.some.injEq] at hget
  exact ⟨hlt, hget⟩

theorem itemOf_last (p : Fin (isakmpSendfrags iph1 buf).length) :
    (itemOf buf p.val).fragLast = true ↔ p.val + 1 = (isakmpSendfrags iph1 buf).length := by
  have hnext := lt_isakmpSendfrags iph1 buf (p.val + 1)
  have hp := p.isLt
  unfold itemOf
  rw [decide_eq_true_iff]
  omega

theorem items_behind (pre : Arrivals iph1 buf) :
    (items pre).dropLast.any FragItem.fragLast = true ↔ LastBehind pre := by
  unfold items LastBehind
  rw [← List.map_dropLast, List.any_map, List.any_eq_true]
  simp only [Function.comp_apply, itemOf_last]

theorem items_complete (pre : Arrivals iph1 buf) (p : Fin (isakmpSendfrags iph1 buf).length) :
    chainComplete (items pre) (p.val + 1) = true ↔ ∀ q ≤ p, q ∈ pre := by
  unfold chainComplete items
  rw [List.all_eq_true]
  simp only [List.mem_range, List.any_map, List.any_eq_true, Function.comp_apply,
    decide_eq_true_iff]
  constructor
  · intro h q hq
    obtain ⟨x, hx, hnum⟩ := h q.val (Nat.lt_succ_of_le hq)
    have heq : x = q := Fin.ext (Nat.succ_injective hnum)
    exact heq ▸ hx
  · intro h i hi
    have hlt : i < (isakmpSendfrags iph1 buf).length := by omega
    exact ⟨⟨i, hlt⟩, h ⟨i, hlt⟩ (Nat.le_of_lt_succ hi), rfl⟩

/-- The extraction on a chain that holds all arrivals. -/
theorem isakmpFragExtract_items (hN : (isakmpSendfrags iph1 buf).length ≤ 255)
    (pre : Arrivals iph1 buf) (p : Fin (isakmpSendfrags iph1 buf).length) :
    (isakmpFragExtract true (items pre) ((isakmpSendfrags iph1 buf).get p)).1 =
        items (pre ++ [p]) ∧
      ((isakmpFragExtract true (items pre) ((isakmpSendfrags iph1 buf).get p)).2 = 1 ↔
        Returns pre p) := by
  obtain ⟨hlt, hget⟩ := sent_get p
  have hp := p.isLt
  have hitems : items pre ++ [itemOf buf p.val] = items (pre ++ [p]) := by
    simp [items]
  have hnum : (itemOf buf p.val).fragNum = p.val + 1 := rfl
  rw [hget, isakmpFragExtract_sent _ _ _ _ hlt (by omega), hitems]
  refine ⟨rfl, ?_⟩
  unfold Returns lastFragOf
  rw [walk_eq, hnum, ← items_behind, ← itemOf_last, ← items_complete]
  cases (items pre).dropLast.any FragItem.fragLast <;> cases (itemOf buf p.val).fragLast <;> simp

/-! ### Reassembly -/

theorem chunks_flatten (buf : Buf) (n : ℕ) :
    ((List.range n).map (chunk buf)).flatten = buf.take (maxDatalen * n) := by
  induction n with
  | zero => simp
  | succ n ih =>
    rw [List.range_succ, List.map_append, List.flatten_append, ih, Nat.mul_succ, List.take_add]
    simp [chunk]

theorem items_find (pre : Arrivals iph1 buf) (q : Fin (isakmpSendfrags iph1 buf).length)
    (h : q ∈ pre) :
    (items pre).find? (fun item => item.fragNum = q.val + 1) = some (itemOf buf q.val) := by
  unfold items
  rw [List.find?_map]
  have hcomp : (fun x : Fin (isakmpSendfrags iph1 buf).length =>
      decide ((itemOf buf x.val).fragNum = q.val + 1)) = fun x => decide (x = q) := by
    funext x
    apply decide_eq_decide.2
    rw [Fin.ext_iff]
    exact Nat.succ_inj
  change Option.map _ (pre.find? fun x => decide ((itemOf buf x.val).fragNum = q.val + 1)) = _
  rw [hcomp]
  cases hfind : pre.find? fun x => decide (x = q) with
  | none => exact absurd (List.find?_eq_none.1 hfind q h) (by simp)
  | some x =>
    have hx := List.find?_some hfind
    simp only [decide_eq_true_iff] at hx
    rw [Option.map_some, hx]

theorem complete_card {pre : Arrivals iph1 buf} (h : Complete pre) :
    pre.toFinset.card = (isakmpSendfrags iph1 buf).length := by
  have huniv : pre.toFinset = Finset.univ := by
    ext q
    simp [h q]
  rw [huniv, Finset.card_univ, Fintype.card_fin]

theorem complete_length {pre : Arrivals iph1 buf} (h : Complete pre) :
    (isakmpSendfrags iph1 buf).length ≤ pre.length := by
  exact (complete_card h).ge.trans (List.toFinset_card_le pre)

theorem complete_nodup {pre : Arrivals iph1 buf} (h : Complete pre) :
    pre.Nodup ↔ pre.length ≤ (isakmpSendfrags iph1 buf).length := by
  have hcard := complete_card h
  have hle := complete_length h
  constructor
  · intro hn
    rw [List.toFinset_card_of_nodup hn] at hcard
    exact hcard.le
  · intro hlen
    apply Multiset.coe_nodup.1
    apply Multiset.toFinset_card_eq_card_iff_nodup.1
    exact hcard.trans (le_antisymm hle hlen)

/-- The chain of a complete message gives it back when it has no duplicate. -/
theorem isakmpFragReassembly_items {pre : Arrivals iph1 buf} (hpre : pre ≠ [])
    (h : Complete pre) :
    isakmpFragReassembly true (items pre) = ([], some buf) ↔ pre.Nodup := by
  have hne : items pre ≠ [] := by
    unfold items
    simpa using hpre
  have hlen : (items pre).length = pre.length := by simp [items]
  have hpos : 0 < pre.length := List.length_pos_of_ne_nil hpre
  unfold isakmpFragReassembly
  rw [if_neg (by simp [hne]), complete_nodup h, hlen]
  simp only [Prod.mk.injEq, true_and, Option.map_eq_some_iff, PartialRun.mapM_eq_some]
  constructor
  · rintro ⟨r, hr, -⟩
    -- the item of the highest number looked for
    have hget := congrArg (fun l => l[pre.length - 1]?) hr
    simp only [List.getElem?_map, List.getElem?_range (show pre.length - 1 < pre.length by omega),
      Option.map_some] at hget
    by_contra hlt
    have hnone : (items pre).find? (fun item => item.fragNum = pre.length - 1 + 1) = none := by
      rw [List.find?_eq_none]
      intro item hitem
      obtain ⟨q, -, rfl⟩ := List.mem_map.1 hitem
      have hq := q.isLt
      change ¬ decide (q.val + 1 = pre.length - 1 + 1) = true
      rw [decide_eq_true_iff]
      omega
    rw [hnone] at hget
    have hlen' := congrArg List.length hr
    simp only [List.length_map, List.length_range] at hlen'
    rw [List.getElem?_eq_getElem (by omega)] at hget
    simp at hget
  · intro hle
    have hN : pre.length = (isakmpSendfrags iph1 buf).length :=
      le_antisymm hle (complete_length h)
    refine ⟨(List.range pre.length).map (chunk buf), ?_, ?_⟩
    · rw [List.map_map]
      apply List.map_congr_left
      intro i hi
      rw [List.mem_range, hN] at hi
      rw [items_find pre ⟨i, hi⟩ (h ⟨i, hi⟩)]
      rfl
    · rw [chunks_flatten, List.take_of_length_le]
      have hend := lt_isakmpSendfrags iph1 buf pre.length
      omega

/-! ### The round trip -/

/-- While nothing is returned, the chain holds all arrivals. -/
theorem feed_items (hN : (isakmpSendfrags iph1 buf).length ≤ 255) {σ : Arrivals iph1 buf}
    (hno : ∀ pre p post, σ = pre ++ p :: post → ¬ Complete (pre ++ [p]) →
      feed pre = items pre → ¬ Returns pre p)
    (pre post : Arrivals iph1 buf) (hσ : σ = pre ++ post) (hpre : ¬ Complete pre) :
    feed pre = items pre := by
  induction pre using List.reverseRecOn generalizing post with
  | nil => rfl
  | append_singleton pre p ih =>
    have hσ' : σ = pre ++ p :: post := by
      rw [hσ, List.append_assoc]
      rfl
    have hpre' : ¬ Complete pre := by
      intro h
      apply hpre
      intro q
      exact List.mem_append_left _ (h q)
    have hfeed := ih (p :: post) hσ' hpre'
    obtain ⟨hchain, hret⟩ := isakmpFragExtract_items hN pre p
    have hr := mt hret.1 (hno pre p post hσ' hpre hfeed)
    unfold feed at hfeed ⊢
    rw [List.foldl_append, List.foldl_cons, List.foldl_nil, hfeed, ← hchain]
    unfold fragHandler
    dsimp only
    rw [if_neg hr]

theorem mem_below {pre : Arrivals iph1 buf} {p : Fin (isakmpSendfrags iph1 buf).length} :
    (∀ q ≤ p, q ∈ pre ++ [p]) ↔ ¬ ∃ q < p, q ∉ pre := by
  constructor
  · rintro h ⟨q, hlt, hq⟩
    have hmem := h q hlt.le
    rw [List.mem_append, List.mem_singleton] at hmem
    exact hmem.elim hq hlt.ne
  · intro h q hle
    rw [List.mem_append, List.mem_singleton]
    by_contra hq
    push Not at hq
    exact h ⟨q, lt_of_le_of_ne hle hq.2, hq.1⟩

theorem orderlyAt_returns {pre : Arrivals iph1 buf}
    {p : Fin (isakmpSendfrags iph1 buf).length} (hc : ¬ Complete (pre ++ [p])) :
    OrderlyAt pre p ↔ ¬ Returns pre p := by
  unfold OrderlyAt Returns
  rw [if_neg hc, mem_below]
  constructor
  · rintro h ⟨hlast | hbehind, hhole⟩
    · apply hc
      intro q
      apply mem_below.2 hhole
      have hq := q.isLt
      rw [Fin.le_def]
      omega
    · exact hhole (h hbehind)
  · intro h hbehind
    by_contra hhole
    exact h ⟨Or.inr hbehind, hhole⟩

theorem roundTripAt_iff (hN : (isakmpSendfrags iph1 buf).length ≤ 255)
    {pre : Arrivals iph1 buf} {p : Fin (isakmpSendfrags iph1 buf).length}
    (hfeed : feed pre = items pre) : RoundTripAt pre p ↔ OrderlyAt pre p := by
  obtain ⟨hchain, hret⟩ := isakmpFragExtract_items hN pre p
  unfold RoundTripAt arrive
  rw [hfeed, hret, hchain]
  by_cases hc : Complete (pre ++ [p])
  · have hall : ∀ q ≤ p, q ∈ pre ++ [p] := fun q _ => hc q
    unfold OrderlyAt Returns
    rw [if_pos hc, isakmpFragReassembly_items (by simp) hc]
    simp only [hc, iff_true, true_implies]
    rw [and_iff_left hall]
  · rw [orderlyAt_returns hc]
    simp only [hc, iff_false, false_implies, and_true]

/-- Which arrivals the fragmentation round trip works for. -/
theorem roundTrips_iff (hN : (isakmpSendfrags iph1 buf).length ≤ 255) (σ : Arrivals iph1 buf) :
    RoundTrips σ ↔ Orderly σ := by
  constructor
  · intro h pre p post hσ hpre
    have hfeed : feed pre = items pre := by
      apply feed_items hN _ pre (p :: post) hσ hpre
      intro pre' p' post' hσ' hc hfeed
      have hpre' : ¬ Complete pre' := fun hall => hc fun q => List.mem_append_left _ (hall q)
      exact (orderlyAt_returns hc).1 ((roundTripAt_iff hN hfeed).1 (h pre' p' post' hσ' hpre'))
    exact (roundTripAt_iff hN hfeed).1 (h pre p post hσ hpre)
  · intro h pre p post hσ hpre
    have hfeed : feed pre = items pre := by
      apply feed_items hN _ pre (p :: post) hσ hpre
      intro pre' p' post' hσ' hc _
      have hpre' : ¬ Complete pre' := fun hall => hc fun q => List.mem_append_left _ (hall q)
      exact (orderlyAt_returns hc).1 (h pre' p' post' hσ' hpre')
    exact (roundTripAt_iff hN hfeed).2 (h pre p post hσ hpre)

end Arrivals

/-- A message of two fragments on a handle of zeros. -/
def plainHandle : Ph1handle :=
  { i_ck := Vector.replicate 8 0, r_ck := Vector.replicate 8 0, version := 16, flags := 0,
    msgid := Vector.replicate 4 0 }

def twoChunks : Buf := List.replicate 513 7

theorem twoChunks_length : (isakmpSendfrags plainHandle twoChunks).length = 2 := by
  decide +kernel

def inOrder : Arrivals plainHandle twoChunks :=
  [⟨0, by rw [twoChunks_length]; decide⟩, ⟨1, by rw [twoChunks_length]; decide⟩]

theorem roundTrips_iff_inOrder : RoundTrips inOrder ↔ Orderly inOrder :=
  roundTrips_iff (by rw [twoChunks_length]; decide) inOrder

/-- The second fragment comes first: the message is never completed. -/
def lastFirst : Arrivals plainHandle twoChunks :=
  [⟨1, by rw [twoChunks_length]; decide⟩, ⟨0, by rw [twoChunks_length]; decide⟩]

theorem lastFirst_lost : ¬ RoundTrips lastFirst := by
  intro h
  have hat := (h [⟨1, by rw [twoChunks_length]; decide⟩]
    ⟨0, by rw [twoChunks_length]; decide⟩ [] rfl (by decide +kernel)).1
  revert hat
  decide +kernel

end WanStack.Racoon
