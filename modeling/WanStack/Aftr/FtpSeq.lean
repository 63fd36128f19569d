import Mathlib.Data.BitVec
import WanStack.Aftr.TcpMss
import WanStack.Lib.StreamEdits

set_option autoImplicit false

/-!
# Sequence numbers of the FTP gateway

Commands that announce an address are rewritten, and the control connection moves by
the difference of their lengths. `fix_ftpsacksum` and `patch_ftpcmd` translate its
sequence numbers with the records of a NAT entry.
-/
namespace WanStack.Aftr.Ftp
open OnesComplement StreamEdits

def TCPSEQ : ℕ := IPHDRLEN + 4
def TCPACK : ℕ := IPHDRLEN + 8

/-- A 32 bit field, most significant byte first, and how it is written. -/
def longAt (b : Buf) (i : ℕ) : BitVec 32 :=
  BitVec.ofNat 32 (shortAt b i * 65536 + shortAt b (i + 2))

def fourBytes (s : BitVec 32) : Buf := twoBytes (s.toNat / 65536) ++ twoBytes s.toNat

/-- `struct ftpseq`. -/
structure FtpSeq where
  delta : ℤ
  oldseq : BitVec 32
  newseq : BitVec 32
deriving DecidableEq

/-- `(int)(s - boundary) >= 0`. -/
def reached (s boundary : BitVec 32) : Bool := decide (0 ≤ (s - boundary).toInt)

def FtpSeq.boundary (fs : FtpSeq) (ack : Bool) : BitVec 32 := if ack then fs.newseq else fs.oldseq

/-- The two halves of a number, as they are summed. -/
def seqSum (s : BitVec 32) : ℕ := s.toNat / 65536 + s.toNat % 65536

/-- The sequence number (`ack = false`) or the acknowledgement at `psa` and the checksum. -/
def fixFtpsacksum (b : Buf) (psa : ℕ) (ack : Bool) (l : List FtpSeq) : Buf :=
  let s0 := longAt b psa
  match l.find? fun fs => reached s0 (fs.boundary ack) with
  | none => b
  | some fs =>
    let s := if ack then s0 - BitVec.ofInt 32 fs.delta else s0 + BitVec.ofInt 32 fs.delta
    let old := seqSum s0 / 65536 + seqSum s0 % 65536
    let sum := 65535 - shortAt b TCPCKSUMH + (65535 - old) + seqSum s
    copyAt (copyAt b psa (fourBytes s)) TCPCKSUMH (twoBytes (cksumFold sum))

/-- The packet with the text `cmd` from `off` on. -/
def putFtpcmd (b cmd : Buf) (off : ℕ) : Buf :=
  let b := b.take off ++ cmd
  let b := copyAt b IPLENH (twoBytes b.length)
  let b := copyAt b IPCKSUMH (twoBytes 0)
  let b := copyAt b IPCKSUMH (twoBytes (inCksum (b.take IPHDRLEN)))
  let b := copyAt b TCPCKSUMH (twoBytes 0)
  copyAt b TCPCKSUMH (twoBytes (pseudoCksum b (twoBytes (b.length - IPHDRLEN))))

/-- The records after a command that ends at `seq`: the last one first, and not when it was
    recorded before. `mem` tells whether `malloc` succeeds. -/
def recordFtpcmd (mem : Bool) (seq : BitVec 32) (delta : ℤ) (l : List FtpSeq) :
    Bool × List FtpSeq :=
  if l.head?.any fun fs => decide (0 ≤ (fs.oldseq - seq).toInt) then (true, l)
  else
    -- keep at most three records
    let l := l.take 3
    if !mem then (false, l)
    else (true, ⟨delta + (l.head?.map FtpSeq.delta).getD 0, seq, seq + BitVec.ofInt 32 delta⟩ :: l)

/-- The packet with the command in the place of its payload, `none` when it is dropped. -/
def patchFtpcmd (mem : Bool) (b cmd : Buf) (l : List FtpSeq) : Option Buf × List FtpSeq :=
  if pseudoCksum b (twoBytes (b.length - IPHDRLEN)) ≠ 0 then (none, l)
  else
    let off := IPHDRLEN + tcpHl b
    let delta : ℤ := cmd.length - (b.length - off : ℕ)
    let seq := longAt b TCPSEQ + BitVec.ofNat 32 cmd.length
    match recordFtpcmd mem seq delta l with
    | (true, l) => (some (putFtpcmd b cmd off), l)
    | (false, l) => (none, l)

/-- The part of `patch_ftpin` behind the choice of the entry; `cmd` is the command it
    writes in the place of one it recognises. -/
def fromTunnel (mem : Bool) (cmd : Option Buf) (b : Buf) (l : List FtpSeq) :
    Option Buf × List FtpSeq :=
  let b := fixFtpsacksum b TCPSEQ false l
  match cmd with
  | none => (some b, l)
  | some cmd => patchFtpcmd mem b cmd l

/-- The same for `patch_ftpout`. -/
def fromInternet (b : Buf) (l : List FtpSeq) : Buf := fixFtpsacksum b TCPACK true l

/-! ### The fields of a segment -/

section Fields

variable {b v : Buf} {i j : ℕ} {s : BitVec 32}

theorem fourBytes_length (s : BitVec 32) : (fourBytes s).length = 4 := rfl

theorem longAt_copyAt_self (h : i + 4 ≤ b.length) : longAt (copyAt b i (fourBytes s)) i = s := by
  have hbytes := bytesAt_copyAt_self (b := b) (v := fourBytes s) (i := i) h
  have hbyte : ∀ k < 4, byteAt (copyAt b i (fourBytes s)) (i + k) = byteAt (fourBytes s) k := by
    intro k hk
    rw [← byteAt_bytesAt hk, ← fourBytes_length s, hbytes]
  have h0 := hbyte 0 (by decide)
  have h1 := hbyte 1 (by decide)
  have h2 := hbyte 2 (by decide)
  have h3 := hbyte 3 (by decide)
  have hnext : i + 2 + 1 = i + 3 := rfl
  rw [Nat.add_zero] at h0
  rw [longAt, shortAt, shortAt, hnext, h0, h1, h2, h3]
  change BitVec.ofNat 32 (((hi (s.toNat / 65536)).toNat * 256 + (lo (s.toNat / 65536)).toNat) *
    65536 + ((hi s.toNat).toNat * 256 + (lo s.toNat).toNat)) = s
  apply BitVec.eq_of_toNat_eq
  have hs := s.isLt
  simp only [hi, lo, UInt8.toNat_ofNat', BitVec.toNat_ofNat]
  omega

theorem longAt_copyAt_other (h : i + v.length ≤ b.length) (hj : j + 4 ≤ b.length)
    (hout : j + 4 ≤ i ∨ i + v.length ≤ j) : longAt (copyAt b i v) j = longAt b j := by
  rw [longAt, longAt, shortAt_copyAt_other h (by omega) (by omega),
    shortAt_copyAt_other h (by omega) (by omega)]

theorem cksumSum_fourBytes (s : BitVec 32) : cksumSum (fourBytes s) = seqSum s := by
  have hs := s.isLt
  change cksumSum [hi (s.toNat / 65536), lo (s.toNat / 65536), hi s.toNat, lo s.toNat] = _
  simp only [cksumSum, seqSum, hi, lo, UInt8.toNat_ofNat']
  omega

theorem seqSum_longAt (h : i + 4 ≤ b.length) : cksumSum (bytesAt b i 4) = seqSum (longAt b i) := by
  have hfirst := short_lt b i
  have hsecond := short_lt b (i + 2)
  have hsplit : bytesAt b i 4 = bytesAt b i 2 ++ bytesAt b (i + 2) 2 := by
    have htwo : bytesAt b i 2 = (bytesAt b i 4).take 2 := by
      rw [bytesAt, bytesAt, List.take_take]
      rfl
    have hrest : bytesAt b (i + 2) 2 = (bytesAt b i 4).drop 2 := by
      rw [bytesAt, bytesAt, List.drop_take, List.drop_drop]
    rw [htwo, hrest, List.take_append_drop]
  have hlen : (bytesAt b i 2).length % 2 = 0 := by rw [bytesAt_length (by omega)]
  rw [hsplit, cksumSum_append hlen, cksumSum_two (by omega), cksumSum_two (by omega), seqSum, longAt,
    BitVec.toNat_ofNat]
  omega

end Fields

/-! ### Segments that are translated -/

/-- A segment of the control connection. -/
structure Segment (b : Buf) : Prop where
  most : b.length ≤ IPMAXLEN
  proto : (byteAt b IPPROTO).toNat = Pr.tcp.proto
  header : TCPHDRLEN ≤ tcpHl b
  whole : IPHDRLEN + tcpHl b ≤ b.length
  summed : TcpSummed b

/-- What the server or the client reads. -/
def payload (b : Buf) : Buf := b.drop (IPHDRLEN + tcpHl b)

theorem Segment.least {b : Buf} (h : Segment b) : 40 ≤ b.length := by
  have hh := h.header
  have hw := h.whole
  change 20 ≤ _ at hh
  change 20 + _ ≤ _ at hw
  omega

/-- The total change that the first record with a boundary before `s` tells. -/
def recordedShift (ack : Bool) (s : BitVec 32) (l : List FtpSeq) : ℤ :=
  ((l.find? fun fs => reached s (fs.boundary ack)).map FtpSeq.delta).getD 0

section Fix

variable {b : Buf} {psa : ℕ} {ack : Bool} {l : List FtpSeq}

/-- The bytes that are written where a record is found. -/
def fixedSeq (b : Buf) (psa : ℕ) (s : BitVec 32) : Buf :=
  let old := seqSum (longAt b psa) / 65536 + seqSum (longAt b psa) % 65536
  let sum := 65535 - shortAt b TCPCKSUMH + (65535 - old) + seqSum s
  copyAt (copyAt b psa (fourBytes s)) TCPCKSUMH (twoBytes (cksumFold sum))

theorem seqSum_le (s : BitVec 32) : seqSum s ≤ 131070 := by
  have hs := s.isLt
  unfold seqSum
  omega

theorem fixedSeq_length (s : BitVec 32) (hpsa : psa = TCPSEQ ∨ psa = TCPACK) (h : Segment b) :
    (fixedSeq b psa s).length = b.length := by
  have hlen := h.least
  have hpsa' : psa = 24 ∨ psa = 28 := hpsa
  have hfirst : (copyAt b psa (fourBytes s)).length = b.length :=
    copyAt_length (by rw [fourBytes_length]; omega)
  rw [fixedSeq, copyAt_length, hfirst]
  rw [hfirst, twoBytes_length]
  change 36 + 2 ≤ _
  omega

theorem fixedSeq_byteAt (s : BitVec 32) {j : ℕ} (hpsa : psa = TCPSEQ ∨ psa = TCPACK)
    (h : Segment b) (hseq : j < psa ∨ psa + 4 ≤ j) (hcksum : j < 36 ∨ 38 ≤ j) :
    byteAt (fixedSeq b psa s) j = byteAt b j := by
  have hlen := h.least
  have hpsa' : psa = 24 ∨ psa = 28 := hpsa
  have hfirst : (copyAt b psa (fourBytes s)).length = b.length :=
    copyAt_length (by rw [fourBytes_length]; omega)
  rw [fixedSeq, byteAt_copyAt_other, byteAt_copyAt_other]
  · rw [fourBytes_length]
    omega
  · rw [fourBytes_length]
    exact hseq
  · rw [hfirst, twoBytes_length]
    change 36 + 2 ≤ _
    omega
  · rw [twoBytes_length]
    exact hcksum

theorem fixedSeq_longAt (s : BitVec 32) (hpsa : psa = TCPSEQ ∨ psa = TCPACK) (h : Segment b) :
    longAt (fixedSeq b psa s) psa = s := by
  have hlen := h.least
  have hpsa' : psa = 24 ∨ psa = 28 := hpsa
  have hfirst : (copyAt b psa (fourBytes s)).length = b.length :=
    copyAt_length (by rw [fourBytes_length]; omega)
  rw [fixedSeq, longAt_copyAt_other, longAt_copyAt_self (by omega)]
  · rw [hfirst, twoBytes_length]
    change 36 + 2 ≤ _
    omega
  · omega
  · left
    change psa + 4 ≤ 36
    omega

theorem fixedSeq_drop (s : BitVec 32) {k : ℕ} (hpsa : psa = TCPSEQ ∨ psa = TCPACK)
    (h : Segment b) (hk : 40 ≤ k) : (fixedSeq b psa s).drop k = b.drop k := by
  have hlen := h.least
  have hpsa' : psa = 24 ∨ psa = 28 := hpsa
  have hfirst : (copyAt b psa (fourBytes s)).length = b.length :=
    copyAt_length (by rw [fourBytes_length]; omega)
  rw [fixedSeq, copyAt_drop_after, copyAt_drop_after]
  · rw [fourBytes_length]
    omega
  · rw [fourBytes_length]
    omega
  · rw [hfirst, twoBytes_length]
    change 36 + 2 ≤ _
    omega
  · rw [twoBytes_length]
    change 36 + 2 ≤ _
    omega

theorem fixedSeq_tcpHl (s : BitVec 32) (hpsa : psa = TCPSEQ ∨ psa = TCPACK) (h : Segment b) :
    tcpHl (fixedSeq b psa s) = tcpHl b := by
  have hpsa' : psa = 24 ∨ psa = 28 := hpsa
  unfold tcpHl
  rw [fixedSeq_byteAt s hpsa h]
  · change 32 < psa ∨ _ ≤ 32
    omega
  · left
    decide

/-- The checksum follows the number. -/
theorem fixedSeq_summed (s : BitVec 32) (hpsa : psa = TCPSEQ ∨ psa = TCPACK) (h : Segment b) :
    TcpSummed (fixedSeq b psa s) := by
  have hlen := fixedSeq_length s hpsa h
  have hleast := h.least
  have hpsa' : psa = 24 ∨ psa = 28 := hpsa
  have hproto : byteAt (fixedSeq b psa s) IPPROTO = byteAt b IPPROTO :=
    fixedSeq_byteAt s hpsa h (by change 9 < psa ∨ _; omega) (.inl (by decide))
  have hsum := h.summed
  have htcp := h.proto
  change _ = 6 at htcp
  unfold TcpSummed pseudoCksum at hsum ⊢
  rw [inCksum_eq_zero (pseudo_length rfl h.most), pseudo_sum rfl] at hsum
  rw [hlen, inCksum_eq_zero (pseudo_length rfl (by rw [hlen]; exact h.most)), pseudo_sum rfl, hproto]
  refine ⟨?_, by omega⟩
  have hold := seqSum_le (longAt b psa)
  have hnew := seqSum_le s
  have hword := short_lt b TCPCKSUMH
  have hdrop : ((fixedSeq b psa s)).drop IPSRC =
      copyAt (copyAt (b.drop 12) (psa - 12) (fourBytes s)) 24
        (twoBytes (cksumFold (65535 - shortAt b TCPCKSUMH +
          (65535 - (seqSum (longAt b psa) / 65536 + seqSum (longAt b psa) % 65536)) + seqSum s))) := by
    change (copyAt (copyAt b psa (fourBytes s)) 36 _).drop 12 = _
    have hfirst : (copyAt b psa (fourBytes s)).length = b.length :=
      copyAt_length (by rw [fourBytes_length]; omega)
    rw [copyAt_drop (by rw [hfirst, twoBytes_length]; omega) (by decide),
      copyAt_drop (by rw [fourBytes_length]; omega) (by omega)]
  obtain ⟨sum, hsumeq⟩ : ∃ sum, sum = 65535 - shortAt b TCPCKSUMH +
      (65535 - (seqSum (longAt b psa) / 65536 + seqSum (longAt b psa) % 65536)) + seqSum s :=
    ⟨_, rfl⟩
  rw [hdrop, ← hsumeq]
  have hrest : (b.drop 12).length = b.length - 12 := List.length_drop
  have htwo := cksumSum_copyAt_two (x := b.drop 12) (v := fourBytes s)
    (u := twoBytes (cksumFold sum)) (i := psa - 12) (j := 24) (by omega) rfl
    (by rw [fourBytes_length]) (by rw [twoBytes_length]) (by rw [fourBytes_length]; omega)
    (by rw [twoBytes_length]; omega) (by rw [twoBytes_length, fourBytes_length]; omega)
  have hat : 12 + (psa - 12) = psa := by omega
  have hfold : cksumFold sum = cksum 65535 sum := cksumFold_eq (by omega)
  have hdvd : 65535 ∣ sum + cksum 65535 sum := cksum_dvd (by omega)
  have hlt : cksumFold sum < 65536 := cksumFold_lt _
  rw [fourBytes_length, twoBytes_length, bytesAt_drop, bytesAt_drop, hat, seqSum_longAt (by omega),
    cksumSum_two (by omega), cksumSum_fourBytes, twoBytes_sum hlt] at htwo
  change _ + _ + shortAt b TCPCKSUMH = cksumSum (b.drop IPSRC) + _ + _ at htwo
  omega

theorem fixFtpsacksum_eq (b : Buf) (psa : ℕ) (ack : Bool) (l : List FtpSeq) :
    fixFtpsacksum b psa ack l = b ∧ recordedShift ack (longAt b psa) l = 0 ∨
      fixFtpsacksum b psa ack l = fixedSeq b psa
        (if ack then longAt b psa - BitVec.ofInt 32 (recordedShift ack (longAt b psa) l)
          else longAt b psa + BitVec.ofInt 32 (recordedShift ack (longAt b psa) l)) := by
  cases hfind : l.find? fun fs => reached (longAt b psa) (fs.boundary ack) with
  | none =>
    left
    simp only [fixFtpsacksum, recordedShift, hfind]
    exact ⟨trivial, rfl⟩
  | some fs =>
    right
    simp only [fixFtpsacksum, recordedShift, hfind]
    rfl

/-- A translated segment: its number by the record, and nothing else but the checksum. -/
theorem fixFtpsacksum_segment (hpsa : psa = TCPSEQ ∨ psa = TCPACK) (ack : Bool) (l : List FtpSeq)
    (h : Segment b) :
    Segment (fixFtpsacksum b psa ack l) ∧
      payload (fixFtpsacksum b psa ack l) = payload b ∧
      longAt (fixFtpsacksum b psa ack l) psa =
        if ack then longAt b psa - BitVec.ofInt 32 (recordedShift ack (longAt b psa) l)
        else longAt b psa + BitVec.ofInt 32 (recordedShift ack (longAt b psa) l) := by
  rcases fixFtpsacksum_eq b psa ack l with ⟨heq, hzero⟩ | heq
  · rw [heq, hzero]
    refine ⟨h, rfl, ?_⟩
    cases ack <;> simp
  · generalize (if ack then longAt b psa - BitVec.ofInt 32 (recordedShift ack (longAt b psa) l)
      else longAt b psa + BitVec.ofInt 32 (recordedShift ack (longAt b psa) l)) = s at heq ⊢
    have hpsa' : psa = 24 ∨ psa = 28 := hpsa
    have hlen := fixedSeq_length s hpsa h
    have hhl := fixedSeq_tcpHl s hpsa h
    have hhead := h.header
    rw [heq]
    refine ⟨⟨?_, ?_, ?_, ?_, fixedSeq_summed s hpsa h⟩, ?_, fixedSeq_longAt s hpsa h⟩
    · rw [hlen]
      exact h.most
    · rw [fixedSeq_byteAt s hpsa h]
      · exact h.proto
      · change 9 < psa ∨ _
        omega
      · left
        decide
    · rw [hhl]
      exact hhead
    · rw [hhl, hlen]
      exact h.whole
    · rw [payload, hhl, fixedSeq_drop s hpsa h]
      · rfl
      · change 20 ≤ _ at hhead
        change 40 ≤ 20 + _
        omega

end Fix

/-! ### Commands that are put into a segment -/

section Put

variable {b cmd : Buf}

/-- A command is written by `snprintf` into 128 bytes, and replaces no longer one. -/
structure Replaces (b cmd : Buf) : Prop where
  segment : Segment b
  short : (payload b).length ≤ 128
  text : cmd.length < 128

/-- The steps of `putFtpcmd` on the headers: the length, and both checksums. -/
theorem putFtpcmd_eq (b cmd : Buf) (off : ℕ) :
    ∃ x y z : Buf,
      x = copyAt (copyAt (b.take off ++ cmd) IPLENH (twoBytes (b.take off ++ cmd).length)) IPCKSUMH
        (twoBytes 0) ∧
      y = copyAt x IPCKSUMH (twoBytes (inCksum (x.take IPHDRLEN))) ∧
      z = copyAt y TCPCKSUMH (twoBytes 0) ∧
      putFtpcmd b cmd off =
        copyAt z TCPCKSUMH (twoBytes (pseudoCksum z (twoBytes (z.length - IPHDRLEN)))) :=
  ⟨_, _, _, rfl, rfl, rfl, rfl⟩

theorem putFtpcmd_segment (h : Replaces b cmd) :
    Segment (putFtpcmd b cmd (IPHDRLEN + tcpHl b)) ∧
      payload (putFtpcmd b cmd (IPHDRLEN + tcpHl b)) = cmd ∧
      longAt (putFtpcmd b cmd (IPHDRLEN + tcpHl b)) TCPSEQ = longAt b TCPSEQ ∧
      shortAt (putFtpcmd b cmd (IPHDRLEN + tcpHl b)) IPLENH =
        (putFtpcmd b cmd (IPHDRLEN + tcpHl b)).length ∧
      inCksum ((putFtpcmd b cmd (IPHDRLEN + tcpHl b)).take IPHDRLEN) = 0 := by
  have hhead := h.segment.header
  have hwhole := h.segment.whole
  have hshort := h.short
  have htext := h.text
  obtain ⟨off, hoff⟩ : ∃ off, off = IPHDRLEN + tcpHl b := ⟨_, rfl⟩
  rw [payload, List.length_drop, ← hoff] at hshort
  rw [← hoff] at hwhole
  have hoff40 : 40 ≤ off := by
    change 20 ≤ _ at hhead
    change off = 20 + _ at hoff
    omega
  have hoff80 : off ≤ 80 := by
    have hbyte := (byteAt b TCPOFF).toNat_lt
    unfold tcpHl at hoff
    change off = 20 + _ at hoff
    omega
  obtain ⟨w, hw⟩ : ∃ w, w = b.take off ++ cmd := ⟨_, rfl⟩
  have hwlen : w.length = off + cmd.length := by
    rw [hw, List.length_append, List.length_take_of_le hwhole]
  have hwbyte : ∀ j < off, byteAt w j = byteAt b j := by
    intro j hj
    rw [hw, byteAt_append_left (by rw [List.length_take_of_le hwhole]; exact hj), byteAt_take hj]
  have hwdrop : w.drop off = cmd := by
    rw [hw]
    exact List.drop_left' (List.length_take_of_le hwhole)
  obtain ⟨x, y, z, hx, hy, hz, hput⟩ := putFtpcmd_eq b cmd off
  rw [← hw] at hx
  rw [← hoff, hput]
  obtain ⟨u, hu⟩ : ∃ u, u = copyAt w IPLENH (twoBytes w.length) := ⟨_, rfl⟩
  rw [← hu] at hx
  have hulen : u.length = w.length := by
    rw [hu]
    apply copyAt_length
    change 2 + 2 ≤ _
    omega
  have hxlen : x.length = w.length := by
    rw [hx, copyAt_length, hulen]
    rw [hulen]
    change 10 + 2 ≤ _
    omega
  have hylen : y.length = w.length := by
    rw [hy, copyAt_length, hxlen]
    rw [hxlen]
    change 10 + 2 ≤ _
    omega
  have hzlen : z.length = w.length := by
    rw [hz, copyAt_length, hylen]
    rw [hylen]
    change 36 + 2 ≤ _
    omega
  obtain ⟨c, hc⟩ : ∃ c, c = pseudoCksum z (twoBytes (z.length - IPHDRLEN)) := ⟨_, rfl⟩
  rw [← hc]
  have hfill : TCPCKSUMH + (twoBytes c).length ≤ z.length := by
    rw [hzlen]
    change 36 + 2 ≤ _
    omega
  have hlen : (copyAt z TCPCKSUMH (twoBytes c)).length = w.length := by
    rw [copyAt_length hfill, hzlen]
  -- what lies outside of the length and the two checksums
  have hbyte : ∀ j, (j < 2 ∨ 4 ≤ j) → (j < 10 ∨ 12 ≤ j) → (j < 36 ∨ 38 ≤ j) →
      byteAt (copyAt z TCPCKSUMH (twoBytes c)) j = byteAt w j := by
    intro j h2 h10 h36
    rw [byteAt_copyAt_other hfill h36, hz,
      byteAt_copyAt_other (by rw [hylen]; change 36 + 2 ≤ _; omega) h36, hy,
      byteAt_copyAt_other (by rw [hxlen]; change 10 + 2 ≤ _; omega) h10, hx,
      byteAt_copyAt_other (by rw [hulen]; change 10 + 2 ≤ _; omega) h10, hu,
      byteAt_copyAt_other (by change 2 + 2 ≤ _; omega) h2]
  have hhl : tcpHl (copyAt z TCPCKSUMH (twoBytes c)) = tcpHl b := by
    unfold tcpHl
    rw [hbyte TCPOFF (.inr (by decide)) (.inr (by decide)) (.inl (by decide)),
      hwbyte TCPOFF (by change 32 < _; omega)]
  have hztake : (copyAt z TCPCKSUMH (twoBytes c)).take IPHDRLEN = y.take IPHDRLEN := by
    rw [copyAt_take_before (by decide) (by rw [hzlen]; change 36 ≤ _; omega), hz,
      copyAt_take_before (by decide) (by rw [hylen]; change 36 ≤ _; omega)]
  refine ⟨⟨?_, ?_, ?_, ?_, ?_⟩, ?_, ?_, ?_, ?_⟩
  · rw [hlen]
    change _ ≤ 65535
    omega
  · rw [hbyte IPPROTO (.inr (by decide)) (.inl (by decide)) (.inl (by decide)),
      hwbyte IPPROTO (by change 9 < _; omega)]
    exact h.segment.proto
  · rw [hhl]
    exact hhead
  · rw [hhl, ← hoff, hlen]
    omega
  · have hzero : shortAt z TCPCKSUMH = 0 := by
      rw [hz, shortAt_copyAt_self (by rw [hylen]; change 36 + 2 ≤ _; omega) rfl]
      rfl
    have hfilled : pseudoCksum (copyAt z TCPCKSUMH
        (twoBytes (pseudoCksum z (twoBytes (z.length - IPHDRLEN))))) (twoBytes (z.length - IPHDRLEN)) =
        0 := pseudoCksum_filled
      (by rw [hzlen]; change 36 + 2 ≤ _; omega) (by decide) rfl rfl hzero (by omega)
    rw [← hc] at hfilled
    unfold TcpSummed
    rw [hlen, ← hzlen]
    exact hfilled
  · rw [payload, hhl, ← hoff, copyAt_drop_after hfill (by change 36 + 2 ≤ _; omega), hz,
      copyAt_drop_after (by rw [hylen]; change 36 + 2 ≤ _; omega) (by change 36 + 2 ≤ _; omega), hy,
      copyAt_drop_after (by rw [hxlen]; change 10 + 2 ≤ _; omega) (by change 10 + 2 ≤ _; omega), hx,
      copyAt_drop_after (by rw [hulen]; change 10 + 2 ≤ _; omega) (by change 10 + 2 ≤ _; omega), hu,
      copyAt_drop_after (by change 2 + 2 ≤ _; omega) (by change 2 + 2 ≤ _; omega)]
    exact hwdrop
  · have hword : ∀ j, 24 ≤ j → j < 28 →
        byteAt (copyAt z TCPCKSUMH (twoBytes c)) j = byteAt b j := by
      intro j hj hj'
      rw [hbyte j (by omega) (by omega) (by omega), hwbyte j (by omega)]
    unfold longAt shortAt
    change BitVec.ofNat 32 ((_ * 256 + _) * 65536 + (_ * 256 + _)) = _
    rw [hword TCPSEQ (by decide) (by decide), hword (TCPSEQ + 1) (by decide) (by decide),
      hword (TCPSEQ + 2) (by decide) (by decide), hword (TCPSEQ + 2 + 1) (by decide) (by decide)]
  · rw [hlen, shortAt_copyAt_other hfill (by rw [hzlen]; change 2 + 2 ≤ _; omega)
        (.inl (by decide)), hz,
      shortAt_copyAt_other (by rw [hylen]; change 36 + 2 ≤ _; omega)
        (by rw [hylen]; change 2 + 2 ≤ _; omega) (.inl (by decide)), hy,
      shortAt_copyAt_other (by rw [hxlen]; change 10 + 2 ≤ _; omega)
        (by rw [hxlen]; change 2 + 2 ≤ _; omega) (.inl (by decide)), hx,
      shortAt_copyAt_other (by rw [hulen]; change 10 + 2 ≤ _; omega)
        (by rw [hulen]; change 2 + 2 ≤ _; omega) (.inl (by decide)), hu,
      shortAt_copyAt_self (by change 2 + 2 ≤ _; omega) rfl]
    exact twoBytes_sum (by omega)
  · have hxtake : (x.take IPHDRLEN).length = 20 := by
      rw [List.length_take_of_le (by rw [hxlen]; change 20 ≤ _; omega)]
      rfl
    have hzero : shortAt (x.take IPHDRLEN) IPCKSUMH = 0 := by
      have hx0 : shortAt x IPCKSUMH = 0 := by
        rw [hx, shortAt_copyAt_self (by rw [hulen]; change 10 + 2 ≤ _; omega) rfl]
        rfl
      rw [shortAt, byteAt_take (by decide), byteAt_take (by decide)]
      exact hx0
    rw [hztake, hy,
      copyAt_take (by rw [twoBytes_length]; decide) (by rw [hxlen]; change 20 ≤ _; omega)]
    exact inCksum_filled (by rw [hxtake]; decide) rfl hzero (by rw [hxtake]; decide)

end Put

end WanStack.Aftr.Ftp
