import WanStack.Aftr.FtpSeq
import WanStack.Lib.PartialRun

set_option autoImplicit false

/-!
# Runs of a control connection

The records of `patch_ftpcmd` against the edits of the stream they stand for, and which
sequence numbers and acknowledgements they translate.
-/
namespace WanStack.Aftr.Ftp
open StreamEdits PartialRun

/-! ### The records of the edits -/

/-- What `patch_ftpcmd` records for an edit. -/
def recordOf (e : Edit) (es : List Edit) : FtpSeq where
  delta := total (e :: es)
  oldseq := BitVec.ofInt 32 (newFin e es)
  newseq := BitVec.ofInt 32 (newFin e es + e.change)

def recordsOf : List Edit → List FtpSeq
  | [] => []
  | e :: es => recordOf e es :: recordsOf es

/-- The boundary an edit has for sequence numbers and for acknowledgements, and the one
    that is recorded. -/
def edge (ack : Bool) (e : Edit) (es : List Edit) : ℤ := if ack then newFin e es else e.fin

def mark (ack : Bool) (e : Edit) (es : List Edit) : ℤ :=
  if ack then newFin e es + e.change else newFin e es

/-- Their difference as a 32 bit number has its sign. -/
def Near (x y : ℤ) : Prop := -0x80000000 ≤ x - y ∧ x - y < 0x80000000

/-- `x` is on the same side of the boundaries and of the recorded ones, as far as `k`
    records reach back. -/
def Told (ack : Bool) (x : ℤ) : ℕ → List Edit → Prop
  | _, [] => True
  | 0, e :: es => x < edge ack e es ∧ Told ack x 0 es
  | k + 1, e :: es =>
    Near x (mark ack e es) ∧ (edge ack e es ≤ x ↔ mark ack e es ≤ x) ∧
      (edge ack e es ≤ x ∨ Told ack x k es)

section Records

variable {ack : Bool} {x y : ℤ} {k : ℕ} {e : Edit} {es : List Edit}

theorem ofInt_sub (x y : ℤ) :
    BitVec.ofInt 32 x - BitVec.ofInt 32 y = BitVec.ofInt 32 (x - y) := by
  rw [BitVec.sub_eq_iff_eq_add, ← BitVec.ofInt_add, Int.sub_add_cancel]

theorem reached_ofInt (h : Near x y) :
    reached (BitVec.ofInt 32 x) (BitVec.ofInt 32 y) = decide (y ≤ x) := by
  have hint : (BitVec.ofInt 32 (x - y)).toInt = x - y :=
    BitVec.toInt_ofInt_eq_self (by decide) h.1 h.2
  rw [reached, ofInt_sub, hint]
  apply decide_eq_decide.mpr
  omega

theorem boundary_recordOf (ack : Bool) (e : Edit) (es : List Edit) :
    (recordOf e es).boundary ack = BitVec.ofInt 32 (mark ack e es) := by
  cases ack <;> rfl

theorem pick_of_lt (h : Told ack x 0 es) : pick (edge ack) x es = 0 := by
  induction es with
  | nil => rfl
  | cons e es ih =>
    rw [pick, if_neg (Int.not_le.mpr h.1)]
    exact ih h.2

/-- The records find what the edits say. -/
theorem recordedShift_told (h : Told ack x k es) :
    recordedShift ack (BitVec.ofInt 32 x) ((recordsOf es).take k) = pick (edge ack) x es := by
  induction es generalizing k with
  | nil =>
    rw [recordsOf, List.take_nil]
    rfl
  | cons e es ih =>
    cases k with
    | zero =>
      rw [pick_of_lt h, List.take_zero]
      rfl
    | succ k =>
      obtain ⟨hnear, hside, hrest⟩ := h
      have hreach := reached_ofInt hnear
      rw [← boundary_recordOf] at hreach
      rw [recordsOf, List.take_succ_cons, recordedShift]
      by_cases hle : edge ack e es ≤ x
      · rw [List.find?_cons_of_pos (by rw [hreach]; exact decide_eq_true (hside.mp hle)), pick,
          if_pos hle]
        rfl
      · rw [List.find?_cons_of_neg (by rw [hreach]; simpa using fun h => hle (hside.mpr h)), pick,
          if_neg hle]
        exact ih (hrest.resolve_left hle)

theorem recordsOf_head (es : List Edit) :
    ((recordsOf es).head?.map FtpSeq.delta).getD 0 = total es := by
  cases es <;> rfl

theorem recordsOf_length (es : List Edit) : (recordsOf es).length = es.length := by
  induction es with
  | nil => rfl
  | cons e es ih => rw [recordsOf, List.length_cons, List.length_cons, ih]

/-- Edits end in their order in the stream behind them. -/
theorem newFin_le {later : List Edit} {f : Edit} (ho : Ordered (f :: later ++ e :: es)) :
    newFin e es ≤ newFin f (later ++ e :: es) := by
  induction later generalizing f with
  | nil =>
    have hle : e.fin ≤ f.start := ho.1 e List.mem_cons_self
    have hf := newFin_eq f (e :: es)
    change newFin e es ≤ newFin f (e :: es)
    unfold newFin at hf ⊢
    omega
  | cons g later ih =>
    have hle : g.fin ≤ f.start := ho.1 g List.mem_cons_self
    have hrest := ih ho.2
    have hf := newFin_eq f (g :: later ++ e :: es)
    have hg : newFin g (later ++ e :: es) = g.fin + total (g :: (later ++ e :: es)) := rfl
    change newFin e es ≤ newFin f (g :: later ++ e :: es)
    rw [List.cons_append] at hf ⊢
    omega

end Records

/-! ### A connection -/

/-- The records of the entry, and beside them the edits so far. -/
structure Conn where
  edits : List Edit
  ftpseq : List FtpSeq
deriving DecidableEq

/-- A segment from the tunnel without and with a command that is rewritten, and one from the
    Internet that acknowledges all before position `p` of the side behind the NAT. -/
inductive Event where
  | segment (s : ℤ) (b : Buf)
  | command (mem : Bool) (e : Edit) (b cmd : Buf)
  | ack (p : ℤ) (b : Buf)

def sent (c : Conn) : Event → Option Buf
  | .segment _ b => (fromTunnel true none b c.ftpseq).1
  | .command mem _ b cmd => (fromTunnel mem (some cmd) b c.ftpseq).1
  | .ack _ b => some (fromInternet b c.ftpseq)

def step (c : Conn) : Event → Option Conn
  | .segment _ b => some { c with ftpseq := (fromTunnel true none b c.ftpseq).2 }
  | .command mem e b cmd =>
    let r := fromTunnel mem (some cmd) b c.ftpseq
    some ⟨if r.1.isSome ∧ e ∉ c.edits then e :: c.edits else c.edits, r.2⟩
  | .ack _ _ => some c

/-- The segments of a connection: a command comes behind the ones before it, or again. -/
def Proper (c : Conn) : Event → Prop
  | .segment s b => Segment b ∧ longAt b TCPSEQ = BitVec.ofInt 32 s
  | .command _ e b cmd =>
    Replaces b cmd ∧ longAt b TCPSEQ = BitVec.ofInt 32 e.start ∧
      e.old = (payload b).length ∧ e.new = cmd.length ∧ 0 < e.old ∧ 0 < e.new ∧
      (e ∈ c.edits ∨ ∀ f ∈ c.edits, f.fin ≤ e.start)
  | .ack p b =>
    Segment b ∧ Outside p c.edits ∧
      longAt b TCPACK = BitVec.ofInt 32 (p + shiftAt p c.edits)

/-- No number lies between the end of a command and the boundary that is recorded for it. -/
def Clear (c : Conn) : Event → Prop
  | .segment s _ => Told false s c.ftpseq.length c.edits
  | .command _ e _ _ =>
    Told false e.start c.ftpseq.length c.edits ∧
      match c.edits with
      | [] => True
      | f :: es => Near (newFin f es) (e.start + shiftAt e.start (f :: es) + e.new)
  | .ack p _ => Told true (p + shiftAt p c.edits) c.ftpseq.length c.edits

/-- A segment goes out with its number moved by the total change of the commands before
    it, and an acknowledgement comes in moved back. A command that comes again gets the
    number it had, and no record. -/
def Right (c : Conn) (ev : Event) (c' : Conn) : Prop :=
  match ev with
  | .segment s b =>
    c' = c ∧ ∃ o, sent c ev = some o ∧ Segment o ∧ payload o = payload b ∧
      longAt o TCPSEQ = BitVec.ofInt 32 (s + shiftAt s c.edits)
  | .command mem e _ cmd =>
    (e ∉ c.edits → mem = false → sent c ev = none ∧ c'.edits = c.edits) ∧
    (e ∉ c.edits → mem = true → c'.edits = e :: c.edits ∧
      ∃ o, sent c ev = some o ∧ Segment o ∧ payload o = cmd ∧
        longAt o TCPSEQ = BitVec.ofInt 32 (e.start + total c.edits)) ∧
    ∀ later earlier, c.edits = later ++ e :: earlier → c' = c ∧
      ∃ o, sent c ev = some o ∧ Segment o ∧ payload o = cmd ∧
        longAt o TCPSEQ = BitVec.ofInt 32 (e.start + total earlier)
  | .ack p b =>
    c' = c ∧ ∃ o, sent c ev = some o ∧ Segment o ∧ payload o = payload b ∧
      longAt o TCPACK = BitVec.ofInt 32 p

/-- The records are those of the last edits. -/
structure Recorded (c : Conn) : Prop where
  ordered : Ordered c.edits
  texts : ∀ e ∈ c.edits, 0 < e.old ∧ 0 < e.new
  records : c.ftpseq = (recordsOf c.edits).take c.ftpseq.length
  some : c.edits ≠ [] → c.ftpseq ≠ []

section Step

variable {c : Conn} {b cmd : Buf} {e : Edit} {s p : ℤ} {mem : Bool}

theorem recorded_empty : Recorded ⟨[], []⟩ where
  ordered := trivial
  texts := by simp
  records := rfl
  some h := absurd rfl h

/-- The number of a segment from the tunnel. -/
theorem seq_right (h : Recorded c) (hb : Segment b) (hs : longAt b TCPSEQ = BitVec.ofInt 32 s)
    (hclear : Told false s c.ftpseq.length c.edits) :
    Segment (fixFtpsacksum b TCPSEQ false c.ftpseq) ∧
      payload (fixFtpsacksum b TCPSEQ false c.ftpseq) = payload b ∧
      longAt (fixFtpsacksum b TCPSEQ false c.ftpseq) TCPSEQ =
        BitVec.ofInt 32 (s + shiftAt s c.edits) := by
  obtain ⟨hseg, hpay, hseq⟩ := fixFtpsacksum_segment (.inl rfl) false c.ftpseq hb
  have htold := recordedShift_told hclear
  rw [← h.records] at htold
  refine ⟨hseg, hpay, ?_⟩
  rw [hseq, if_neg Bool.false_ne_true, hs, htold, BitVec.ofInt_add]
  rfl

theorem ack_right (h : Recorded c) (hb : Segment b) (hout : Outside p c.edits)
    (hs : longAt b TCPACK = BitVec.ofInt 32 (p + shiftAt p c.edits))
    (hclear : Told true (p + shiftAt p c.edits) c.ftpseq.length c.edits) :
    Segment (fromInternet b c.ftpseq) ∧ payload (fromInternet b c.ftpseq) = payload b ∧
      longAt (fromInternet b c.ftpseq) TCPACK = BitVec.ofInt 32 p := by
  obtain ⟨hseg, hpay, hseq⟩ := fixFtpsacksum_segment (.inr rfl) true c.ftpseq hb
  have htold := recordedShift_told hclear
  rw [← h.records] at htold
  have hback : pick (edge true) (p + shiftAt p c.edits) c.edits = shiftAt p c.edits :=
    unshift_shifted h.ordered (fun e he => (h.texts e he).2) hout
  refine ⟨hseg, hpay, ?_⟩
  rw [fromInternet, hseq, if_pos rfl, hs, htold, hback, ofInt_sub, Int.add_sub_cancel]

/-- The head of the records is that of the last edit. -/
theorem records_head {f : Edit} {es : List Edit} (h : Recorded c) (hc : c.edits = f :: es) :
    ∃ l, c.ftpseq = recordOf f es :: l := by
  have hne := h.some (by rw [hc]; exact List.cons_ne_nil f es)
  have hrec := h.records
  rw [hc, recordsOf] at hrec
  obtain ⟨fs, l, hfs⟩ := List.exists_cons_of_ne_nil hne
  rw [hfs, List.length_cons, List.take_succ_cons] at hrec
  exact ⟨l, by rw [hfs, (List.cons.inj hrec).1]⟩

theorem recordFtpcmd_again {f : Edit} {es : List Edit} {x : ℤ} {delta : ℤ} (h : Recorded c)
    (hc : c.edits = f :: es) (hnear : Near (newFin f es) x) (hle : x ≤ newFin f es) :
    recordFtpcmd mem (BitVec.ofInt 32 x) delta c.ftpseq = (true, c.ftpseq) := by
  obtain ⟨l, hl⟩ := records_head h hc
  have hreach := reached_ofInt hnear
  unfold reached at hreach
  have hany : (recordOf f es :: l).head?.any
      (fun fs => decide (0 ≤ (fs.oldseq - BitVec.ofInt 32 x).toInt)) = true := by
    change decide (0 ≤ (BitVec.ofInt 32 (newFin f es) - BitVec.ofInt 32 x).toInt) = true
    rw [hreach]
    exact decide_eq_true hle
  rw [recordFtpcmd, hl, if_pos hany]

theorem recordFtpcmd_new {x : ℤ} {delta : ℤ} (h : Recorded c)
    (hhead : ∀ f es, c.edits = f :: es → Near (newFin f es) x ∧ newFin f es < x) :
    recordFtpcmd mem (BitVec.ofInt 32 x) delta c.ftpseq =
      if mem = true then
        (true, ⟨delta + total c.edits, BitVec.ofInt 32 x, BitVec.ofInt 32 (x + delta)⟩ ::
          c.ftpseq.take 3)
      else (false, c.ftpseq.take 3) := by
  have hno : c.ftpseq.head?.any
      (fun fs => decide (0 ≤ (fs.oldseq - BitVec.ofInt 32 x).toInt)) = false := by
    cases hc : c.edits with
    | nil =>
      have hrec := h.records
      rw [hc, recordsOf, List.take_nil] at hrec
      rw [hrec]
      rfl
    | cons f es =>
      obtain ⟨l, hl⟩ := records_head h hc
      obtain ⟨hnear, hlt⟩ := hhead f es hc
      have hreach := reached_ofInt hnear
      unfold reached at hreach
      rw [hl]
      change decide (0 ≤ (BitVec.ofInt 32 (newFin f es) - BitVec.ofInt 32 x).toInt) = false
      rw [hreach]
      exact decide_eq_false (Int.not_le.mpr hlt)
  have htotal : ((c.ftpseq.take 3).head?.map FtpSeq.delta).getD 0 = total c.edits := by
    cases hc : c.edits with
    | nil =>
      have hrec := h.records
      rw [hc, recordsOf, List.take_nil] at hrec
      rw [hrec]
      rfl
    | cons f es =>
      obtain ⟨l, hl⟩ := records_head h hc
      rw [hl]
      rfl
  rw [recordFtpcmd, hno, if_neg Bool.false_ne_true]
  cases mem with
  | false => rfl
  | true =>
    simp only [Bool.not_true, Bool.false_eq_true, if_false, if_true]
    rw [htotal, BitVec.ofInt_add]

theorem patchFtpcmd_eq {l : List FtpSeq} {x : ℤ} (hr : Replaces b cmd)
    (hold : e.old = (payload b).length) (hnew : e.new = cmd.length)
    (hx : longAt b TCPSEQ = BitVec.ofInt 32 x) :
    patchFtpcmd mem b cmd l =
      (if (recordFtpcmd mem (BitVec.ofInt 32 (x + e.new)) e.change l).1 = true then
        some (putFtpcmd b cmd (IPHDRLEN + tcpHl b)) else none,
        (recordFtpcmd mem (BitVec.ofInt 32 (x + e.new)) e.change l).2) := by
  have hsum : pseudoCksum b (twoBytes (b.length - IPHDRLEN)) = 0 := hr.segment.summed
  have hdelta : (cmd.length : ℤ) - (b.length - (IPHDRLEN + tcpHl b) : ℕ) = e.change := by
    rw [payload, List.length_drop] at hold
    unfold Edit.change
    rw [hnew, hold]
  have hseq : longAt b TCPSEQ + BitVec.ofNat 32 cmd.length = BitVec.ofInt 32 (x + e.new) := by
    rw [hx, BitVec.ofInt_add, hnew]
    rfl
  rw [patchFtpcmd, if_neg (fun hne => hne hsum)]
  dsimp only
  rw [hdelta, hseq]
  cases recordFtpcmd mem (BitVec.ofInt 32 (x + e.new)) e.change l with
  | mk ok l' => cases ok <;> rfl

/-- The invariant after a new command. -/
theorem Recorded.snoc (h : Recorded c) (hpos : 0 < e.old ∧ 0 < e.new)
    (hlast : ∀ f ∈ c.edits, f.fin ≤ e.start) :
    Recorded ⟨e :: c.edits, recordOf e c.edits :: c.ftpseq.take 3⟩ where
  ordered := ⟨hlast, h.ordered⟩
  texts f hf := by
    rcases List.mem_cons.mp hf with rfl | hmem
    · exact hpos
    · exact h.texts f hmem
  records := by
    have hrec := h.records
    have htake : c.ftpseq.take 3 = (recordsOf c.edits).take (c.ftpseq.take 3).length := by
      conv_lhs => rw [hrec]
      rw [List.take_take, List.length_take]
    change recordOf e c.edits :: c.ftpseq.take 3 =
      (recordOf e c.edits :: recordsOf c.edits).take ((c.ftpseq.take 3).length + 1)
    rw [List.take_succ_cons, ← htake]
  some _ := List.cons_ne_nil _ _

theorem Recorded.take (h : Recorded c) : Recorded { c with ftpseq := c.ftpseq.take 3 } where
  ordered := h.ordered
  texts := h.texts
  records := by
    have hrec := h.records
    change c.ftpseq.take 3 = (recordsOf c.edits).take (c.ftpseq.take 3).length
    conv_lhs => rw [hrec]
    rw [List.take_take, List.length_take]
  some hne := by
    have := h.some hne
    change c.ftpseq.take 3 ≠ []
    cases hl : c.ftpseq with
    | nil => exact absurd hl this
    | cons fs l => simp

/-- A command that is there has its place in the list. -/
theorem command_again {later earlier : List Edit} (h : Recorded c) (hr : Replaces b cmd)
    (hs : longAt b TCPSEQ = BitVec.ofInt 32 e.start) (hold : e.old = (payload b).length)
    (hnew : e.new = cmd.length) (hclear : Clear c (.command mem e b cmd))
    (hedits : c.edits = later ++ e :: earlier) :
    step c (.command mem e b cmd) = some c ∧
      ∃ o, sent c (.command mem e b cmd) = some o ∧ Segment o ∧ payload o = cmd ∧
        longAt o TCPSEQ = BitVec.ofInt 32 (e.start + total earlier) := by
  obtain ⟨hseg, hpay, hseq⟩ := seq_right h hr.segment hs hclear.1
  have hpos := (h.texts e (by rw [hedits]; simp)).1
  have hshift : shiftAt e.start c.edits = total earlier := by
    rw [hedits]
    exact shiftAt_start (hedits ▸ h.ordered) hpos
  rw [hshift] at hseq
  have hput : Replaces (fixFtpsacksum b TCPSEQ false c.ftpseq) cmd :=
    ⟨hseg, by rw [hpay]; exact hr.short, hr.text⟩
  have hrecorded : recordFtpcmd mem (BitVec.ofInt 32 (e.start + total earlier + e.new)) e.change
      c.ftpseq = (true, c.ftpseq) := by
    obtain ⟨f, es, hcons⟩ : ∃ f es, c.edits = f :: es := by
      cases hc : c.edits with
      | nil => simp [hc] at hedits
      | cons f es => exact ⟨f, es, rfl⟩
    have hnear := hclear.2
    rw [hcons] at hnear
    change Near (newFin f es) (e.start + shiftAt e.start (f :: es) + e.new) at hnear
    rw [← hcons, hshift] at hnear
    apply recordFtpcmd_again h hcons hnear
    rw [← newFin_eq]
    have hord := h.ordered
    rw [hedits] at hcons hord
    cases later with
    | nil =>
      obtain ⟨rfl, rfl⟩ := List.cons.inj hcons
      exact Int.le_refl _
    | cons g later =>
      obtain ⟨rfl, rfl⟩ := List.cons.inj hcons
      exact newFin_le hord
  have hfrom : fromTunnel mem (some cmd) b c.ftpseq =
      (some (putFtpcmd (fixFtpsacksum b TCPSEQ false c.ftpseq) cmd
        (IPHDRLEN + tcpHl (fixFtpsacksum b TCPSEQ false c.ftpseq))), c.ftpseq) := by
    change patchFtpcmd mem (fixFtpsacksum b TCPSEQ false c.ftpseq) cmd c.ftpseq = _
    rw [patchFtpcmd_eq hput (by rw [hpay]; exact hold) hnew hseq, hrecorded]
    exact congrArg₂ Prod.mk (if_pos rfl) rfl
  obtain ⟨hosegment, hopayload, hoseq, -⟩ := putFtpcmd_segment hput
  constructor
  · have hmem : e ∈ c.edits := by
      rw [hedits]
      simp
    simp only [step, hfrom]
    rw [if_neg (fun hboth => hboth.2 hmem)]
  · refine ⟨_, by rw [sent, hfrom], hosegment, hopayload, ?_⟩
    rw [hoseq]
    exact hseq

theorem command_new (h : Recorded c) (hr : Replaces b cmd)
    (hs : longAt b TCPSEQ = BitVec.ofInt 32 e.start) (hold : e.old = (payload b).length)
    (hnew : e.new = cmd.length) (hpos : 0 < e.old ∧ 0 < e.new)
    (hlast : ∀ f ∈ c.edits, f.fin ≤ e.start) (hclear : Clear c (.command mem e b cmd)) :
    ∃ c', step c (.command mem e b cmd) = some c' ∧ Recorded c' ∧
      (mem = false → sent c (.command mem e b cmd) = none ∧ c'.edits = c.edits) ∧
      (mem = true → c'.edits = e :: c.edits ∧
        ∃ o, sent c (.command mem e b cmd) = some o ∧ Segment o ∧ payload o = cmd ∧
          longAt o TCPSEQ = BitVec.ofInt 32 (e.start + total c.edits)) := by
  obtain ⟨hseg, hpay, hseq⟩ := seq_right h hr.segment hs hclear.1
  have hshift : shiftAt e.start c.edits = total c.edits := shiftAt_behind hlast
  rw [hshift] at hseq
  have hput : Replaces (fixFtpsacksum b TCPSEQ false c.ftpseq) cmd :=
    ⟨hseg, by rw [hpay]; exact hr.short, hr.text⟩
  have hhead : ∀ f es, c.edits = f :: es →
      Near (newFin f es) (e.start + total c.edits + e.new) ∧
        newFin f es < e.start + total c.edits + e.new := by
    intro f es hc
    have hnear := hclear.2
    rw [hc] at hnear
    change Near (newFin f es) (e.start + shiftAt e.start (f :: es) + e.new) at hnear
    rw [← hc, hshift] at hnear
    refine ⟨hnear, ?_⟩
    have hle : f.fin ≤ e.start := hlast f (by rw [hc]; exact List.mem_cons_self)
    have hpos' := hpos.2
    rw [hc]
    unfold newFin
    omega
  have hrecord : recordFtpcmd mem _ e.change c.ftpseq = _ := recordFtpcmd_new h hhead
  have hfrom : fromTunnel mem (some cmd) b c.ftpseq =
      if mem = true then
        (some (putFtpcmd (fixFtpsacksum b TCPSEQ false c.ftpseq) cmd
          (IPHDRLEN + tcpHl (fixFtpsacksum b TCPSEQ false c.ftpseq))),
          recordOf e c.edits :: c.ftpseq.take 3)
      else (none, c.ftpseq.take 3) := by
    change patchFtpcmd mem (fixFtpsacksum b TCPSEQ false c.ftpseq) cmd c.ftpseq = _
    rw [patchFtpcmd_eq hput (by rw [hpay]; exact hold) hnew hseq, hrecord]
    cases mem with
    | false => rfl
    | true =>
      rw [← newFin_eq]
      rfl
  have hnot : e ∉ c.edits := by
    intro hmem
    have hle := hlast e hmem
    have := hpos.1
    unfold Edit.fin at hle
    omega
  obtain ⟨hosegment, hopayload, hoseq, -⟩ := putFtpcmd_segment hput
  cases mem with
  | false =>
    refine ⟨{ c with ftpseq := c.ftpseq.take 3 }, ?_, h.take, ?_, fun hf => absurd hf (by decide)⟩
    · simp only [step, hfrom]
      rfl
    · intro _
      exact ⟨by rw [sent, hfrom]; rfl, rfl⟩
  | true =>
    refine ⟨⟨e :: c.edits, recordOf e c.edits :: c.ftpseq.take 3⟩, ?_, h.snoc hpos hlast,
      fun hf => absurd hf (by decide), ?_⟩
    · simp only [step, hfrom, if_true]
      rw [if_pos ⟨rfl, hnot⟩]
    · intro _
      refine ⟨rfl, _, by rw [sent, hfrom, if_pos rfl], hosegment, hopayload, ?_⟩
      rw [hoseq]
      exact hseq

/-- One packet of the connection. -/
theorem step_right {ev : Event} (h : Recorded c) (hev : Proper c ev ∧ Clear c ev) :
    ∃ c', step c ev = some c' ∧ Right c ev c' ∧ Recorded c' := by
  obtain ⟨hproper, hclear⟩ := hev
  cases ev with
  | segment s b =>
    obtain ⟨hb, hs⟩ := hproper
    exact ⟨c, rfl, ⟨rfl, _, rfl, seq_right h hb hs hclear⟩, h⟩
  | ack p b =>
    obtain ⟨hb, hout, hs⟩ := hproper
    exact ⟨c, rfl, ⟨rfl, _, rfl, ack_right h hb hout hs hclear⟩, h⟩
  | command mem e b cmd =>
    obtain ⟨hr, hs, hold, hnew, hold0, hnew0, hplace⟩ := hproper
    by_cases hmem : e ∈ c.edits
    · obtain ⟨later, earlier, hedits⟩ := List.append_of_mem hmem
      refine ⟨c, (command_again h hr hs hold hnew hclear hedits).1, ⟨?_, ?_, ?_⟩, h⟩
      · intro hno
        exact absurd hmem hno
      · intro hno
        exact absurd hmem hno
      · intro later' earlier' hedits'
        exact ⟨rfl, (command_again h hr hs hold hnew hclear hedits').2⟩
    · have hlast := hplace.resolve_left hmem
      obtain ⟨c', hstep, hrec, hfail, hdone⟩ :=
        command_new h hr hs hold hnew ⟨hold0, hnew0⟩ hlast hclear
      refine ⟨c', hstep, ⟨fun _ => hfail, fun _ => hdone, ?_⟩, hrec⟩
      intro later earlier hedits
      exact absurd (by rw [hedits]; simp) hmem

end Step

/-- As long as no number falls between the end of a command and its recorded boundary, the
    gateway translates every segment and every acknowledgement of the connection. -/
theorem ftp_translation {evs : List Event}
    (h : Along step (fun c ev => Proper c ev ∧ Clear c ev) ⟨[], []⟩ evs) :
    Through step Right ⟨[], []⟩ evs :=
  through_of_along (fun _ _ hc hev => step_right hc hev) recorded_empty h

/-- A `PORT` command of 10.0.0.1, the segment after it, and the acknowledgement of a command
    that was one byte shorter. -/
def portCommand : Buf :=
  [69, 0, 0, 59, 0, 1, 0, 0, 64, 6, 52, 182, 10, 0, 0, 1, 203, 0, 113, 5, 4, 0, 0, 21, 0, 0, 3, 232,
    0, 0, 0, 1, 80, 24, 16, 0, 93, 246, 0, 0, 80, 79, 82, 84, 32, 49, 48, 44, 48, 44, 48, 44, 49,
    44, 52, 44, 49, 13, 10]

def nextSegment : Buf :=
  [69, 0, 0, 40, 0, 1, 0, 0, 64, 6, 52, 201, 10, 0, 0, 1, 203, 0, 113, 5, 4, 0, 0, 21, 0, 0, 3, 251,
    0, 0, 0, 1, 80, 16, 16, 0, 81, 189, 0, 0]

def acknowledgement : Buf :=
  [69, 0, 0, 40, 0, 1, 0, 0, 64, 6, 52, 201, 203, 0, 113, 5, 10, 0, 0, 1, 0, 21, 4, 0, 0, 0, 0, 1,
    0, 0, 3, 250, 80, 16, 16, 0, 81, 190, 0, 0]

/-- The command for the address 8.8.8.8, and for 192.0.2.1. -/
def shorterText : Buf := [80, 79, 82, 84, 32, 56, 44, 56, 44, 56, 44, 56, 44, 52, 44, 49, 13, 10]

def longerText : Buf :=
  [80, 79, 82, 84, 32, 49, 57, 50, 44, 48, 44, 50, 44, 49, 44, 52, 44, 49, 13, 10]

theorem portCommand_segment : Segment portCommand where
  most := by decide
  proto := by decide
  header := by decide
  whole := by decide
  summed := by
    unfold TcpSummed
    decide +kernel

theorem nextSegment_segment : Segment nextSegment where
  most := by decide
  proto := by decide
  header := by decide
  whole := by decide
  summed := by
    unfold TcpSummed
    decide +kernel

theorem acknowledgement_segment : Segment acknowledgement where
  most := by decide
  proto := by decide
  header := by decide
  whole := by decide
  summed := by
    unfold TcpSummed
    decide +kernel

def shorterRun : List Event :=
  [.command true ⟨1000, 19, 18⟩ portCommand shorterText, .segment 1019 nextSegment,
    .ack 1019 acknowledgement]

theorem ftp_translation_shorter : Through step Right ⟨[], []⟩ shorterRun := by
  apply ftp_translation
  refine ⟨⟨⟨⟨portCommand_segment, by decide, by decide⟩, ?_⟩, trivial, trivial⟩, ?_⟩
  · exact ⟨by decide +kernel, by decide, by decide, by decide, by decide, .inr (by decide)⟩
  intro c hc
  have hfirst : step ⟨[], []⟩ (.command true ⟨1000, 19, 18⟩ portCommand shorterText) =
      some ⟨[⟨1000, 19, 18⟩], [⟨-1, 1018, 1017⟩]⟩ := by decide +kernel
  obtain rfl := Option.some.inj (hfirst.symm.trans hc)
  refine ⟨⟨⟨nextSegment_segment, by decide +kernel⟩, ?_⟩, ?_⟩
  · exact ⟨⟨by decide, by decide⟩, by decide, .inl (by decide)⟩
  intro c' hc'
  have hsecond : step ⟨[⟨1000, 19, 18⟩], [⟨-1, 1018, 1017⟩]⟩ (.segment 1019 nextSegment) =
      some ⟨[⟨1000, 19, 18⟩], [⟨-1, 1018, 1017⟩]⟩ := by decide +kernel
  obtain rfl := Option.some.inj (hsecond.symm.trans hc')
  refine ⟨⟨⟨acknowledgement_segment, by unfold Outside; decide, by decide +kernel⟩, ?_⟩, fun _ _ => trivial⟩
  exact ⟨⟨by decide, by decide⟩, by decide, .inl (by decide)⟩

/-- The segment behind a command that got longer is not moved. -/
theorem longer_not_translated :
    ¬∀ evs, Along step Proper ⟨[], []⟩ evs → Through step Right ⟨[], []⟩ evs := by
  intro hall
  have hfirst : step ⟨[], []⟩ (.command true ⟨1000, 19, 20⟩ portCommand longerText) =
      some ⟨[⟨1000, 19, 20⟩], [⟨1, 1020, 1021⟩]⟩ := by decide +kernel
  have halong : Along step Proper ⟨[], []⟩
      [.command true ⟨1000, 19, 20⟩ portCommand longerText, .segment 1019 nextSegment] := by
    refine ⟨⟨⟨portCommand_segment, by decide, by decide⟩, ?_⟩, ?_⟩
    · exact ⟨by decide +kernel, by decide, by decide, by decide, by decide, .inr (by decide)⟩
    intro c hc
    obtain rfl := Option.some.inj (hfirst.symm.trans hc)
    exact ⟨⟨nextSegment_segment, by decide +kernel⟩, fun _ _ => trivial⟩
  obtain ⟨c, hc, -, c', -, ⟨-, o, ho, -, -, hseq⟩, -⟩ := hall _ halong
  obtain rfl := Option.some.inj (hfirst.symm.trans hc)
  have hsame : (sent ⟨[⟨1000, 19, 20⟩], [⟨1, 1020, 1021⟩]⟩ (.segment 1019 nextSegment)).map
      (fun o => longAt o TCPSEQ) = some 1019 := by decide +kernel
  rw [ho, Option.map_some] at hsame
  rw [Option.some.inj hsame] at hseq
  exact absurd hseq (by decide +kernel)

end WanStack.Aftr.Ftp
