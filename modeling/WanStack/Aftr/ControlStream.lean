import WanStack.Aftr.Bytes
import WanStack.Lib.PartialRun

set_option autoImplicit false

/-!
# The command stream of a control session

`commands` reads from the descriptor of a session into `cbuf` and hands each
line to `cmdline`.
-/
namespace WanStack.Aftr.ControlStream

def CBUFSIZE : ℕ := 600
def LINESIZE : ℕ := 256
def newline : UInt8 := 10
def carriage : UInt8 := 13

/-- The fields of `struct sess` that `commands` uses; `cpos` is a `size_t`. -/
structure SessBuf where
  cbuf : Buf
  cpos : ℕ
  isOpen : Bool
deriving DecidableEq, Repr

def sizeSub (a b : ℕ) : ℕ := (a + 2 ^ 64 - b) % 2 ^ 64

/-- The C string at the start of a buffer. -/
def cstring (b : Buf) : Buf := b.takeWhile (· ≠ 0)

def strchr (b : Buf) (c : UInt8) : Option ℕ := (cstring b).findIdx? (· = c)

/-- `memmove` of all but the first `len` bytes to the front; the last `len`
    bytes stay as they are. -/
def moveDown (b : Buf) (len : ℕ) : Buf := b.drop len ++ b.drop (b.length - len)

/-- What one round of the loop learns from outside: how many bytes `FIONREAD`
    and `read` give, what `cmdline` returns, and what it leaves behind. -/
structure Answer where
  waiting : ℕ
  cc : ℤ
  closes : Bool
  reloading : Bool

/-- A session and its stream: the bytes to come, the lines passed to `cmdline`,
    and whether `commands` is in its loop. -/
structure Session where
  ss : SessBuf
  first : Bool
  inside : Bool
  coming : Buf
  passed : List Buf
deriving DecidableEq, Repr

/-- The buffer as the round finds it. -/
def cleared (ss : SessBuf) : SessBuf :=
  if ss.cpos = 0 then { ss with cbuf := List.replicate CBUFSIZE 0 } else ss

/-- The newline the round finds. -/
def findLine (ss : SessBuf) : Option ℕ :=
  if 0 < ss.cpos then strchr ss.cbuf newline else none

/-- A line is taken from the buffer; one that is too long is dropped. -/
def takeLine (s : Session) (a : Answer) (l : ℕ) : Session :=
  let cbuf := s.ss.cbuf.set l 0
  let len := (cstring cbuf).length + 1
  let ss := { s.ss with cbuf := moveDown cbuf len, cpos := sizeSub s.ss.cpos len }
  if LINESIZE ≤ len then { s with ss := ss }
  else
    { s with
      ss := { ss with isOpen := !a.closes }
      inside := !(0 < a.cc || a.reloading)
      passed := s.passed ++ [cbuf.take (len - 1)] }

/-- `FIONREAD` and `read`. A session found closed is closed or, when locked,
    ends the program. A read outside `cbuf` is undefined. -/
def readMore (s : Session) (a : Answer) : Option Session :=
  let room := sizeSub (sizeSub CBUFSIZE s.ss.cpos) 1
  let got := (s.coming.take a.waiting).take room
  if a.waiting = 0 then
    some { s with ss := { s.ss with isOpen := !s.first }, inside := false }
  else if got = [] then
    some { s with ss := { s.ss with isOpen := false }, inside := false }
  else if CBUFSIZE < s.ss.cpos + got.length then none
  else
    some { s with
      ss := { s.ss with
        cbuf := s.ss.cbuf.take s.ss.cpos ++ got ++ s.ss.cbuf.drop (s.ss.cpos + got.length)
        cpos := s.ss.cpos + got.length }
      first := false
      coming := s.coming.drop got.length }

/-- One round of the loop of `commands`. -/
def round (s : Session) (a : Answer) : Option Session :=
  if !s.ss.isOpen then some { s with inside := false }
  else
    let s := { s with ss := cleared s.ss }
    match findLine s.ss with
    | some l => some (takeLine s a l)
    | none => readMore s a

/-- `commands` is called, or its loop makes a round. -/
inductive Act where
  | call
  | round (a : Answer)

def step (s : Session) : Act → Option Session
  | .call => some (if s.inside then s else { s with first := s.ss.cpos = 0, inside := true })
  | .round a => if s.inside then round s a else some s

/-- A new session on a stream of bytes. -/
def opened (stream : Buf) : Session :=
  { ss := { cbuf := List.replicate CBUFSIZE 0, cpos := 0, isOpen := true }
    first := false, inside := false, coming := stream, passed := [] }

/-- The loop of `cmdline` that strips the end of a line; `none` when it looks
    before the start. -/
def stripEnd : Buf → Option Buf
  | [] => none
  | c :: rest => if c = newline ∨ c = carriage then stripEnd rest else some (c :: rest).reverse

/-- `cmdline` strips its line from the end. -/
def cmdlineStrip (line : Buf) : Option Buf := stripEnd line.reverse

/-! ### The lines of a stream -/

/-- The lines that a newline ends. -/
def lines (stream : Buf) : List Buf := (stream.splitOn newline).dropLast

theorem lines_cons {l : Buf} (h : newline ∉ l) (rest : Buf) :
    lines (l ++ newline :: rest) = l :: lines rest := by
  unfold lines
  rw [List.splitOn_append_cons_self_of_not_mem h]
  exact List.dropLast_cons_of_ne_nil (List.splitOn_ne_nil _ _)

theorem lines_partial {l : Buf} (h : newline ∉ l) : lines l = [] := by
  unfold lines
  rw [List.splitOn_eq_singleton h]
  rfl

theorem lines_passed {passed : List Buf} (h : ∀ l ∈ passed, newline ∉ l) (rest : Buf) :
    lines ((passed.map (· ++ [newline])).flatten ++ rest) = passed ++ lines rest := by
  induction passed with
  | nil => rfl
  | cons l passed ih =>
    rw [List.map_cons, List.flatten_cons, List.append_assoc, List.append_assoc,
      List.singleton_append, lines_cons (h l List.mem_cons_self),
      ih fun m hm => h m (List.mem_cons_of_mem l hm)]
    rfl

/-- All lines, the unfinished one at the end included, have under 255 bytes. -/
def ShortLines (stream : Buf) : Prop := ∀ l ∈ stream.splitOn newline, l.length < LINESIZE - 1

instance (stream : Buf) : Decidable (ShortLines stream) :=
  inferInstanceAs (Decidable (∀ l ∈ stream.splitOn newline, l.length < LINESIZE - 1))

theorem splitOn_prefix {l stream : Buf} (h : newline ∉ l) (hl : l <+: stream) :
    ∃ m rest, stream.splitOn newline = m :: rest ∧ l <+: m := by
  obtain ⟨rest, rfl⟩ := hl
  induction l with
  | nil =>
    obtain ⟨m, t, hm⟩ := List.exists_cons_of_ne_nil (List.splitOn_ne_nil newline rest)
    exact ⟨m, t, hm, List.nil_prefix⟩
  | cons x l ih =>
    rw [List.mem_cons, not_or] at h
    obtain ⟨m, t, hm, hpre⟩ := ih h.2
    refine ⟨x :: m, t, ?_, List.cons_prefix_cons.2 ⟨rfl, hpre⟩⟩
    rw [List.cons_append, List.splitOn_cons_eq_if_modifyHead, hm, if_neg]
    · rfl
    · simpa using Ne.symm h.1

theorem splitOn_infix {l stream : Buf} (h : newline ∉ l) (hl : l <:+: stream) :
    ∃ m ∈ stream.splitOn newline, l <:+: m := by
  induction stream with
  | nil =>
    rw [List.infix_nil.1 hl]
    exact ⟨[], by simp, List.infix_rfl⟩
  | cons x stream ih =>
    rcases List.infix_cons_iff.1 hl with hpre | hinf
    · obtain ⟨m, rest, hm, hlm⟩ := splitOn_prefix h hpre
      exact ⟨m, by rw [hm]; exact List.mem_cons_self, hlm.isInfix⟩
    · obtain ⟨m, hm, hlm⟩ := ih hinf
      rw [List.splitOn_cons_eq_if_modifyHead]
      split_ifs with hx
      · exact ⟨m, List.mem_cons_of_mem _ hm, hlm⟩
      · obtain ⟨k, t, hk⟩ := List.exists_cons_of_ne_nil (List.splitOn_ne_nil newline stream)
        rw [hk] at hm ⊢
        rcases List.mem_cons.1 hm with rfl | ht
        · exact ⟨x :: m, List.mem_cons_self, List.infix_cons hlm⟩
        · exact ⟨m, List.mem_cons_of_mem _ ht, hlm⟩

/-- A piece of such a stream without a newline is short. -/
theorem ShortLines.infix {l stream : Buf} (hs : ShortLines stream) (h : newline ∉ l)
    (hl : l <:+: stream) : l.length < 255 := by
  obtain ⟨m, hm, hlm⟩ := splitOn_infix h hl
  exact hlm.length_le.trans_lt (hs m hm)

/-! ### C strings -/

theorem cstring_append {p : Buf} (h : 0 ∉ p) (q : Buf) : cstring (p ++ q) = p ++ cstring q := by
  unfold cstring
  apply List.takeWhile_append_of_pos
  intro c hc
  have hne : c ≠ 0 := fun h0 => h (h0 ▸ hc)
  simpa using hne

theorem cstring_zero (q : Buf) : cstring (0 :: q) = [] := rfl

theorem cstring_zeros : cstring (List.replicate CBUFSIZE 0) = [] := by
  rw [show List.replicate CBUFSIZE 0 = 0 :: List.replicate 599 (0 : UInt8) from rfl]
  exact cstring_zero _

theorem zeros_final : (List.replicate CBUFSIZE (0 : UInt8))[CBUFSIZE - 1]? = some 0 := by
  rw [List.getElem?_replicate, if_pos (by decide)]

theorem cstring_terminated {p : Buf} (h : 0 ∈ p) (q : Buf) : cstring (p ++ q) = cstring p := by
  obtain ⟨a, b, rfl, ha⟩ := List.eq_append_cons_of_mem h
  rw [List.append_assoc, cstring_append ha, cstring_append ha]
  rfl

theorem strchr_append {p q : Buf} (h0 : 0 ∉ p) (hq : newline ∉ cstring q) :
    strchr (p ++ q) newline = p.findIdx? (· = newline) := by
  have hnone : (cstring q).findIdx? (· = newline) = none := by
    rw [List.findIdx?_eq_none_iff]
    intro c hc
    exact decide_eq_false fun h => hq (h ▸ hc)
  unfold strchr
  rw [cstring_append h0, List.findIdx?_append, hnone]
  simp

theorem findIdx_newline {p : Buf} {l : ℕ} (h : p.findIdx? (· = newline) = some l) :
    l < p.length ∧ p = p.take l ++ newline :: p.drop (l + 1) ∧ newline ∉ p.take l := by
  obtain ⟨hl, heq, hbefore⟩ := List.findIdx?_eq_some_iff_getElem.1 h
  refine ⟨hl, ?_, ?_⟩
  · have hget : p[l] = newline := by simpa using heq
    rw [← hget, List.cons_getElem_drop_succ, List.take_append_drop]
  · intro hmem
    obtain ⟨j, hj, hget⟩ := List.mem_take_iff_getElem.1 hmem
    have hne := hbefore j (by omega)
    simp [hget] at hne

theorem sizeSub_of_le {a b : ℕ} (h : b ≤ a) (ha : a < 2 ^ 64) : sizeSub a b = a - b := by
  unfold sizeSub
  omega

/-! ### The invariant -/

/-- How many bytes a read gives. -/
def newBytes (s : Session) (a : Answer) : ℕ :=
  ((s.coming.take a.waiting).take (sizeSub (sizeSub CBUFSIZE s.ss.cpos) 1)).length

/-- When the round reads, no newline of the old contents follows the bytes read
    before the next NUL. -/
def CleanRead (s : Session) : Act → Prop
  | .call => True
  | .round a =>
    s.inside = true → s.ss.isOpen = true → findLine s.ss = none →
      newline ∉ cstring ((cleared s.ss).cbuf.drop (s.ss.cpos + newBytes s a))

instance (s : Session) : (act : Act) → Decidable (CleanRead s act)
  | .call => isTrue trivial
  | .round a =>
    inferInstanceAs (Decidable (s.inside = true → s.ss.isOpen = true → findLine s.ss = none →
      newline ∉ cstring ((cleared s.ss).cbuf.drop (s.ss.cpos + newBytes s a))))

/-- The bytes in `cbuf` up to `cpos` are those read and not yet passed on, the
    last byte stays zero, and no old newline follows within the C string. -/
structure Inv (stream : Buf) (s : Session) : Prop where
  size : s.ss.cbuf.length = CBUFSIZE
  final : s.ss.cbuf[CBUFSIZE - 1]? = some 0
  bound : s.ss.cpos ≤ CBUFSIZE - 1
  clean : newline ∉ cstring (s.ss.cbuf.drop s.ss.cpos)
  split : stream =
    (s.passed.map (· ++ [newline])).flatten ++ (s.ss.cbuf.take s.ss.cpos ++ s.coming)
  whole : ∀ l ∈ s.passed, newline ∉ l

section
variable {stream : Buf} {s : Session} (hI : Inv stream s)
include hI

theorem Inv.taken_infix : s.ss.cbuf.take s.ss.cpos <:+: stream := by
  rw [hI.split, ← List.append_assoc]
  exact List.infix_append _ _ _

theorem Inv.findLine_eq (h0 : 0 ∉ stream) :
    findLine s.ss = (s.ss.cbuf.take s.ss.cpos).findIdx? (· = newline) := by
  unfold findLine
  split_ifs with hpos
  · have hstr := strchr_append (fun h => h0 (hI.taken_infix.subset h)) hI.clean
    rw [List.take_append_drop] at hstr
    exact hstr
  · have hzero : s.ss.cpos = 0 := by omega
    rw [hzero]
    rfl

theorem Inv.terminated : 0 ∈ s.ss.cbuf.drop s.ss.cpos := by
  apply List.mem_iff_getElem?.2
  refine ⟨CBUFSIZE - 1 - s.ss.cpos, ?_⟩
  rw [List.getElem?_drop, Nat.add_sub_cancel' hI.bound]
  exact hI.final

end

theorem moveDown_length {b : Buf} {len : ℕ} (h : len ≤ b.length) :
    (moveDown b len).length = b.length := by
  unfold moveDown
  rw [List.length_append, List.length_drop, List.length_drop]
  omega

theorem moveDown_take {b : Buf} {len cpos : ℕ} (h : len ≤ cpos) (hb : cpos ≤ b.length) :
    (moveDown b len).take (cpos - len) = (b.take cpos).drop len := by
  unfold moveDown
  rw [List.take_append_of_le_length, List.drop_take]
  rw [List.length_drop]
  omega

theorem moveDown_cstring {b : Buf} {len cpos : ℕ} (h : len ≤ cpos) (hb : cpos ≤ b.length)
    (h0 : 0 ∈ b.drop cpos) :
    cstring ((moveDown b len).drop (cpos - len)) = cstring (b.drop cpos) := by
  unfold moveDown
  rw [List.drop_append_of_le_length, List.drop_drop, Nat.add_sub_cancel' h,
    cstring_terminated h0]
  rw [List.length_drop]
  omega

theorem moveDown_final {b : Buf} {len : ℕ} (h : len ≤ b.length) (hpos : 0 < len) :
    (moveDown b len)[b.length - 1]? = b[b.length - 1]? := by
  unfold moveDown
  rw [List.getElem?_append_right, List.getElem?_drop, List.length_drop]
  · congr 1
    omega
  · rw [List.length_drop]
    omega

/-- Taking a line that is short enough keeps the invariant. -/
theorem Inv.takeLine {stream : Buf} {s : Session} (hI : Inv stream s) (h0 : 0 ∉ stream)
    (hshort : ShortLines stream) (a : Answer) {l : ℕ} (hl : findLine s.ss = some l) :
    Inv stream (takeLine s a l) := by
  rw [hI.findLine_eq h0] at hl
  obtain ⟨hlt, hline, hnot⟩ := findIdx_newline hl
  have hsize := hI.size
  have hbound := hI.bound
  rw [List.length_take] at hlt
  rw [List.take_take, min_eq_left (by omega)] at hline hnot
  have hinf : s.ss.cbuf.take l <:+: stream := by
    apply List.IsInfix.trans _ hI.taken_infix
    rw [hline]
    exact (List.prefix_append _ _).isInfix
  have hlen := hshort.infix hnot hinf
  have hstr : cstring (s.ss.cbuf.set l 0) = s.ss.cbuf.take l := by
    rw [List.set_eq_take_append_cons_drop, if_pos (by omega),
      cstring_append fun h => h0 (hinf.subset h)]
    rw [cstring_zero, List.append_nil]
  have hlen' : (cstring (s.ss.cbuf.set l 0)).length + 1 = l + 1 := by
    rw [hstr, List.length_take]
    omega
  have hset : ∀ n, l < n → (s.ss.cbuf.set l 0).drop n = s.ss.cbuf.drop n := by
    intro n hn
    exact List.drop_set_of_lt hn
  have hterm : 0 ∈ (s.ss.cbuf.set l 0).drop s.ss.cpos := by
    rw [hset _ (by omega)]
    exact hI.terminated
  have hsize' : (s.ss.cbuf.set l 0).length = CBUFSIZE := by rw [List.length_set, hsize]
  have hpos' : sizeSub s.ss.cpos (l + 1) = s.ss.cpos - (l + 1) := by
    apply sizeSub_of_le (by omega)
    unfold CBUFSIZE at hbound
    omega
  have htake : (moveDown (s.ss.cbuf.set l 0) (l + 1)).take (s.ss.cpos - (l + 1)) =
      (s.ss.cbuf.take s.ss.cpos).drop (l + 1) := by
    rw [moveDown_take (by omega) (by omega), List.drop_take, hset _ (by omega), ← List.drop_take]
  unfold ControlStream.takeLine
  simp only [hlen', hpos']
  rw [List.length_take] at hlen
  rw [if_neg (by unfold LINESIZE; omega)]
  have hpassed : (s.ss.cbuf.set l 0).take (l + 1 - 1) = s.ss.cbuf.take l := by
    rw [Nat.add_sub_cancel, List.take_set_of_le le_rfl]
  rw [hpassed]
  exact {
    size := by rw [moveDown_length (by omega), hsize']
    final := by
      have hle : l + 1 ≤ (s.ss.cbuf.set l 0).length := by omega
      have hfinal := moveDown_final hle (Nat.succ_pos l)
      rw [hsize'] at hfinal
      rw [hfinal, List.getElem?_set_ne (by omega), hI.final]
    bound := by
      dsimp only
      omega
    clean := by
      dsimp only
      rw [moveDown_cstring (by omega) (by omega) hterm, hset _ (by omega)]
      exact hI.clean
    split := by
      dsimp only
      rw [htake, List.map_append, List.flatten_append, List.append_assoc]
      conv_lhs => rw [hI.split, hline]
      simp
    whole := by
      intro m hm
      rcases List.mem_append.1 hm with hm | hm
      · exact hI.whole m hm
      · rw [List.mem_singleton.1 hm]
        exact hnot }

theorem Inv.cleared {stream : Buf} {s : Session} (hI : Inv stream s) :
    Inv stream { s with ss := cleared s.ss } := by
  unfold ControlStream.cleared
  split_ifs with hzero
  · have htake := hI.split
    rw [hzero, List.take_zero] at htake
    exact {
      size := List.length_replicate
      final := zeros_final
      bound := hI.bound
      clean := by
        dsimp only
        rw [hzero, List.drop_zero, cstring_zeros]
        exact List.not_mem_nil
      split := by
        dsimp only
        rw [hzero]
        exact htake
      whole := hI.whole }
  · exact hI

theorem findLine_cleared (ss : SessBuf) : findLine (cleared ss) = findLine ss := by
  unfold findLine cleared
  by_cases h : ss.cpos = 0
  · rw [if_pos h]
    dsimp only
    rw [if_neg (by omega), if_neg (by omega)]
  · rw [if_neg h]

theorem Inv.readMore {stream : Buf} {s : Session} (hI : Inv stream s)
    (a : Answer) (hclean : newline ∉ cstring (s.ss.cbuf.drop (s.ss.cpos + newBytes s a))) :
    ∃ s', readMore s a = some s' ∧ Inv stream s' := by
  have hsize := hI.size
  have hbound := hI.bound
  unfold CBUFSIZE at hsize hbound
  have hroom : sizeSub (sizeSub CBUFSIZE s.ss.cpos) 1 = CBUFSIZE - 1 - s.ss.cpos := by
    unfold CBUFSIZE
    rw [sizeSub_of_le (a := 600) (by omega) (by omega), sizeSub_of_le (by omega) (by omega)]
    omega
  unfold newBytes at hclean
  unfold ControlStream.readMore
  dsimp only
  rw [hroom] at hclean ⊢
  generalize hgot : (s.coming.take a.waiting).take (CBUFSIZE - 1 - s.ss.cpos) = got at hclean ⊢
  have hpre : got <+: s.coming := by
    rw [← hgot]
    exact (List.take_prefix _ _).trans (List.take_prefix _ _)
  have hlen : s.ss.cpos + got.length ≤ 599 := by
    rw [← hgot, List.length_take]
    unfold CBUFSIZE
    omega
  obtain ⟨rest, hrest⟩ := hpre
  split_ifs with hw hnil hout
  · exact ⟨_, rfl, hI.size, hI.final, hI.bound, hI.clean, hI.split, hI.whole⟩
  · exact ⟨_, rfl, hI.size, hI.final, hI.bound, hI.clean, hI.split, hI.whole⟩
  · unfold CBUFSIZE at hout
    omega
  · have hprefix : (s.ss.cbuf.take s.ss.cpos ++ got).length = s.ss.cpos + got.length := by
      rw [List.length_append, List.length_take]
      omega
    refine ⟨_, rfl, ?_⟩
    exact {
      size := by
        dsimp only
        rw [List.length_append, hprefix, List.length_drop]
        unfold CBUFSIZE
        omega
      final := by
        have hfinal := hI.final
        dsimp only
        unfold CBUFSIZE at hfinal ⊢
        rw [List.getElem?_append_right (by omega), hprefix, List.getElem?_drop,
          Nat.add_sub_cancel' (by omega), hfinal]
      bound := by
        unfold CBUFSIZE
        exact hlen
      clean := by
        dsimp only
        rw [← hprefix, List.drop_left, hprefix]
        exact hclean
      split := by
        dsimp only
        rw [← hprefix, List.take_left, ← hrest, List.drop_left, List.append_assoc, hrest]
        exact hI.split
      whole := hI.whole }

/-- One step keeps the invariant when its read is clean. -/
theorem Inv.step {stream : Buf} (h0 : 0 ∉ stream) (hshort : ShortLines stream) (s : Session)
    (act : Act) (hI : Inv stream s) (hclean : CleanRead s act) :
    ∃ s', step s act = some s' ∧ Inv stream s' := by
  cases act with
  | call =>
    refine ⟨_, rfl, ?_⟩
    split_ifs
    · exact hI
    · exact ⟨hI.size, hI.final, hI.bound, hI.clean, hI.split, hI.whole⟩
  | round a =>
    unfold ControlStream.step
    dsimp only
    split_ifs with hin
    · unfold round
      cases hopen : s.ss.isOpen with
      | false => exact ⟨_, rfl, hI.size, hI.final, hI.bound, hI.clean, hI.split, hI.whole⟩
      | true =>
        have hI' := hI.cleared
        rw [Bool.not_true, if_neg (by decide)]
        dsimp only
        rw [findLine_cleared]
        cases hline : findLine s.ss with
        | some l =>
          rw [← findLine_cleared] at hline
          exact ⟨_, rfl, hI'.takeLine h0 hshort a hline⟩
        | none =>
          apply hI'.readMore a
          have hc := hclean hin hopen hline
          have hpos : (ControlStream.cleared s.ss).cpos = s.ss.cpos := by
            unfold ControlStream.cleared
            split_ifs <;> rfl
          unfold newBytes at hc ⊢
          dsimp only
          rw [hpos]
          exact hc
    · exact ⟨s, rfl, hI⟩

theorem Inv.opened (stream : Buf) : Inv stream (opened stream) :=
  { size := List.length_replicate
    final := zeros_final
    bound := Nat.zero_le _
    clean := by
      change newline ∉ cstring (List.replicate CBUFSIZE 0)
      rw [cstring_zeros]
      exact List.not_mem_nil
    split := rfl
    whole := fun _ h => absurd h List.not_mem_nil }

/-! ### The framing -/

theorem stripEnd_isSome (l : Buf) :
    (stripEnd l).isSome = true ↔ ∃ c ∈ l, c ≠ newline ∧ c ≠ carriage := by
  induction l with
  | nil => simp [stripEnd]
  | cons c l ih =>
    unfold stripEnd
    split_ifs with hc
    · rw [ih]
      constructor
      · rintro ⟨d, hd, hne⟩
        exact ⟨d, List.mem_cons_of_mem c hd, hne⟩
      · rintro ⟨d, hd, hne⟩
        rcases List.mem_cons.1 hd with rfl | hd
        · exact absurd hc (not_or.2 hne)
        · exact ⟨d, hd, hne⟩
    · rw [Option.isSome_some, eq_self_iff_true, true_iff]
      exact ⟨c, List.mem_cons_self, not_or.1 hc⟩

/-- What the control stream promises of a session on a stream. -/
structure Framed (stream : Buf) (s : Session) : Prop where
  bound : s.ss.cpos ≤ CBUFSIZE - 1
  /-- Lines of the stream, once each and in order. -/
  once : s.passed <+: lines stream
  /-- When no line is left in the buffer, all lines read were passed. -/
  all : findLine s.ss = none →
    s.passed = lines (stream.take (stream.length - s.coming.length))
  strips : ∀ l ∈ s.passed, (cmdlineStrip l).isSome = true

theorem Inv.framed {stream : Buf} {s : Session} (hI : Inv stream s) (h0 : 0 ∉ stream)
    (hblank : ∀ l ∈ lines stream, ∃ c ∈ l, c ≠ newline ∧ c ≠ carriage) : Framed stream s := by
  have honce : s.passed <+: lines stream := by
    rw [hI.split, lines_passed hI.whole]
    exact List.prefix_append _ _
  refine ⟨hI.bound, honce, ?_, ?_⟩
  · intro hline
    rw [hI.findLine_eq h0, List.findIdx?_eq_none_iff] at hline
    have hnot : newline ∉ s.ss.cbuf.take s.ss.cpos := by
      intro h
      simpa using hline newline h
    have hread : stream.take (stream.length - s.coming.length) =
        (s.passed.map (· ++ [newline])).flatten ++ s.ss.cbuf.take s.ss.cpos := by
      have hsplit := hI.split
      rw [← List.append_assoc] at hsplit
      rw [hsplit, List.length_append, Nat.add_sub_cancel, List.take_left]
    rw [hread, lines_passed hI.whole, lines_partial hnot, List.append_nil]
  · intro l hl
    obtain ⟨c, hc, hne⟩ := hblank l (honce.subset hl)
    exact (stripEnd_isSome _).2 ⟨c, List.mem_reverse.2 hc, hne⟩

/-- Every run whose reads are clean, on a stream without blank lines, is framed. -/
theorem commands_framed (stream : Buf) (h0 : 0 ∉ stream) (hshort : ShortLines stream)
    (hblank : ∀ l ∈ lines stream, ∃ c ∈ l, c ≠ newline ∧ c ≠ carriage) (acts : List Act)
    (hclean : PartialRun.Along step CleanRead (opened stream) acts) :
    ∃ s, PartialRun.run step (opened stream) acts = some s ∧ Framed stream s := by
  obtain ⟨s, hs, hI⟩ := PartialRun.run_invariant (Inv.step h0 hshort) (Inv.opened stream) hclean
  exact ⟨s, hs, hI.framed h0 hblank⟩

/-- A round in which `cmdline` returns zero. -/
def plainRound (waiting : ℕ) : Act := .round ⟨waiting, 0, false, false⟩

/-- Two reads that split a line. -/
theorem commands_framed_split :
    ∃ s, PartialRun.run step (opened [97, 98, newline])
      [.call, plainRound 1, plainRound 9, plainRound 0, plainRound 0] = some s ∧
      Framed [97, 98, newline] s :=
  commands_framed [97, 98, newline] (by decide) (by decide) (by decide) _ (by decide +kernel)

/-- Three lines and six bytes fill the buffer; one more byte is read later. -/
def tightStream : Buf :=
  List.replicate 200 97 ++ [newline] ++ List.replicate 200 97 ++ [newline] ++
    List.replicate 190 97 ++ [newline] ++ List.replicate 7 98

def tightActs : List Act :=
  [.call, plainRound 599, plainRound 0, plainRound 0, plainRound 0, plainRound 1, plainRound 0]

/-- A fourth line is passed, made of old bytes, and `cpos` wraps. -/
theorem tightStream_not_framed :
    0 ∉ tightStream ∧ ShortLines tightStream ∧
      ∃ s, PartialRun.run step (opened tightStream) tightActs = some s ∧
        ¬ Framed tightStream s := by
  refine ⟨by decide +kernel, by decide +kernel, ?_⟩
  have hrun : ((PartialRun.run step (opened tightStream) tightActs).any fun s =>
      CBUFSIZE ≤ s.ss.cpos) = true := by
    decide +kernel
  obtain ⟨s, hs, hpos⟩ := (Option.any_eq_true _ _).1 hrun
  refine ⟨s, hs, fun h => ?_⟩
  have hbound := h.bound
  rw [decide_eq_true_iff] at hpos
  unfold CBUFSIZE at hpos hbound
  omega

end WanStack.Aftr.ControlStream
