import WanStack.Racoon.SetProposal

set_option autoImplicit false

/-!
# Chains of payloads

Payloads of one type after each other, each with its length and the type of the
next. The writers append to a chain by patching its last payload; the walker of
`isakmp_parsewoh` reads each payload of a chain, whatever memory follows it.
-/
namespace WanStack.Racoon.Proposal
open Aftr (Buf byteAt shortAt hi lo)

/-! ### Numbers -/

@[simp] theorem short_length (n : ℕ) : (short n).length = 2 := rfl
@[simp] theorem long_length (n : ℕ) : (long n).length = 4 := rfl

theorem shortAt_short (n : ℕ) (h : n < 65536) (rest : Buf) : shortAt (short n ++ rest) 0 = n :=
  Aftr.hi_lo h

theorem shortAt_append (b rest : Buf) (i : ℕ) : shortAt (b ++ rest) (b.length + i) = shortAt rest i := by
  unfold shortAt
  rw [Aftr.byteAt_append_right (by omega), Aftr.byteAt_append_right (by omega), Nat.add_assoc,
    Nat.add_sub_cancel_left, Nat.add_sub_cancel_left]

theorem longAt_long (n : ℕ) (h : n < 4294967296) (rest : Buf) : longAt (long n ++ rest) 0 = n := by
  have hlow : shortAt (long n ++ rest) 2 = n % 65536 := by
    rw [long, List.append_assoc, show 2 = (short (n / 65536)).length + 0 from rfl, shortAt_append]
    simp only [short, shortAt, byteAt, List.cons_append, List.getD_cons_zero, List.getD_cons_succ,
      Nat.zero_add, hi, lo, UInt8.toNat_ofNat']
    omega
  rw [longAt, hlow, long, List.append_assoc, shortAt_short _ (by omega)]
  omega

theorem u8_toNat (v : ℤ) (h0 : 0 ≤ v) (h : v < 256) : ((u8 v).toNat : ℤ) = v := by
  simp only [u8, UInt8.toNat_ofNat']
  omega

theorem memcpy_append (b rest : Buf) : memcpy (b ++ rest) b.length = b := by
  apply List.ext_getElem
  · simp [memcpy]
  · intro i h1 h2
    simp [memcpy, byteAt, List.getElem?_append_left h2, List.getElem?_eq_getElem h2]

/-! ### Writing into a buffer -/

theorem patch_mid (a b b' c : Buf) (h : b'.length = b.length) :
    patch (a ++ (b ++ c)) a.length b' = a ++ (b' ++ c) := by
  unfold patch
  rw [List.take_left, h, List.drop_append, List.drop_of_length_le (by omega),
    Nat.add_sub_cancel_left, List.drop_left]
  simp

theorem patch_at (a b b' c : Buf) (off : ℕ) (hoff : off = a.length) (h : b'.length = b.length) :
    patch (a ++ (b ++ c)) off b' = a ++ (b' ++ c) := by
  rw [hoff]
  exact patch_mid a b b' c h

theorem patch_length (b : Buf) (off : ℕ) (bs : Buf) (h : off + bs.length ≤ b.length) :
    (patch b off bs).length = b.length := by
  simp [patch]
  omega

theorem byteAt_at (a : Buf) (x : UInt8) (c : Buf) (i : ℕ) (hi : i = a.length) :
    byteAt (a ++ (x :: c)) i = x := by
  rw [hi, Aftr.byteAt_append_right (Nat.le_refl _), Nat.sub_self]
  rfl

/-! ### Chains -/

/-- A payload: the generic header and what it holds. -/
def payload (np : ℕ) (body : Buf) : Buf :=
  [UInt8.ofNat np, 0] ++ (short (GEN_LEN + body.length) ++ body)

/-- Payloads that are not the last of their chain. -/
def links (type : ℕ) (bodies : List Buf) : Buf := (bodies.map (payload type)).flatten

def chain (type : ℕ) : List Buf → Buf
  | [] => []
  | [body] => payload ISAKMP_NPTYPE_NONE body
  | body :: next :: bodies => payload type body ++ chain type (next :: bodies)

@[simp] theorem payload_length (np : ℕ) (body : Buf) :
    (payload np body).length = GEN_LEN + body.length := by
  simp [payload, GEN_LEN]
  omega

@[simp] theorem links_append (type : ℕ) (bodies more : List Buf) :
    links type (bodies ++ more) = links type bodies ++ links type more := by
  simp [links]

@[simp] theorem links_singleton (type : ℕ) (body : Buf) : links type [body] = payload type body := by
  simp [links]

theorem chain_snoc (type : ℕ) (bodies : List Buf) (last : Buf) :
    chain type (bodies ++ [last]) = links type bodies ++ payload ISAKMP_NPTYPE_NONE last := by
  induction bodies with
  | nil => rfl
  | cons body bodies ih =>
    have hcons : chain type (body :: (bodies ++ [last])) =
        payload type body ++ chain type (bodies ++ [last]) := by
      cases bodies <;> rfl
    rw [List.cons_append, hcons, ih]
    simp [links]

theorem chain_length (type : ℕ) (bodies : List Buf) :
    (chain type bodies).length = (links type bodies).length := by
  induction bodies with
  | nil => rfl
  | cons body bodies ih =>
    cases bodies with
    | nil => simp [chain]
    | cons next bodies =>
      rw [chain, List.length_append, ih]
      simp [links]

/-- The offset of the last payload of a chain. -/
def lastOff (type : ℕ) (bodies : List Buf) : ℕ := (links type bodies.dropLast).length

/-- Writing the type of the next payload into the last one. -/
theorem patch_chain (type : ℕ) (pre : Buf) (bodies : List Buf) (more : Buf) (hne : bodies ≠ []) :
    patch (pre ++ (chain type bodies ++ more)) (pre.length + lastOff type bodies)
      [UInt8.ofNat type] = pre ++ (links type bodies ++ more) := by
  obtain ⟨init, last, rfl⟩ : ∃ init last, bodies = init ++ [last] :=
    ⟨bodies.dropLast, bodies.getLast hne, (List.dropLast_append_getLast hne).symm⟩
  have hoff : pre.length + lastOff type (init ++ [last]) = (pre ++ links type init).length := by
    rw [lastOff, List.dropLast_concat, List.length_append]
  rw [chain_snoc, links_append, links_singleton]
  have hsplit : ∀ np, pre ++ (links type init ++ payload np last ++ more) =
      (pre ++ links type init) ++
        ([UInt8.ofNat np] ++ ([0] ++ short (GEN_LEN + last.length) ++ last ++ more)) := by
    intro np
    simp [payload]
  rw [hsplit, hsplit]
  exact patch_at _ _ _ _ _ hoff rfl

/-! ### Walking -/

/-- What the walker finds in a chain with `rest` behind it. -/
def parses (type : ℕ) : List Buf → Buf → List IsakmpParse
  | [], _ => []
  | body :: bodies, rest =>
    { type := type, ptr := chain type (body :: bodies) ++ rest, len := GEN_LEN + body.length } ::
      parses type bodies rest

theorem parseLoop_end (k np : ℕ) (gen : Buf) : parseLoop k np gen 0 = some [] := by
  cases k with
  | zero => rfl
  | succ k => rw [parseLoop, if_pos (.inl (by omega))]

/-- A payload with what its sender left in the reserved byte. -/
def framed (np : ℕ) (reserved : UInt8) (body : Buf) : Buf :=
  [UInt8.ofNat np, reserved] ++ (short (GEN_LEN + body.length) ++ body)

@[simp] theorem framed_length (np : ℕ) (reserved : UInt8) (body : Buf) :
    (framed np reserved body).length = GEN_LEN + body.length := by
  simp [framed, GEN_LEN]
  omega

theorem framed_header (np : ℕ) (reserved : UInt8) (body rest : Buf) (hnp : np < 256)
    (hlen : GEN_LEN + body.length < 65536) :
    (byteAt (framed np reserved body ++ rest) 0).toNat = np ∧
      shortAt (framed np reserved body ++ rest) 2 = GEN_LEN + body.length := by
  constructor
  · show (UInt8.ofNat np).toNat = np
    rw [UInt8.toNat_ofNat']
    omega
  · have hsplit : framed np reserved body ++ rest =
        [UInt8.ofNat np, reserved] ++ (short (GEN_LEN + body.length) ++ (body ++ rest)) := by
      simp [framed]
    rw [hsplit]
    exact (shortAt_append [UInt8.ofNat np, reserved] _ 0).trans (shortAt_short _ hlen _)

theorem parseLoop_framed (k type np : ℕ) (reserved : UInt8) (body rest : Buf) (tlen : ℕ)
    (htype : type ≠ 0) (hnp : np < 256) (hlen : GEN_LEN + body.length < 65536) (hbody : body ≠ []) :
    parseLoop (k + 1) type (framed np reserved body ++ rest) (GEN_LEN + body.length + tlen : ℕ) =
      (parseLoop k np rest tlen).map
        ({ type := type, ptr := framed np reserved body ++ rest, len := GEN_LEN + body.length } :: ·) := by
  obtain ⟨hnext, hplen⟩ := framed_header np reserved body rest hnp hlen
  have hpos : 0 < body.length := List.length_pos_iff.mpr hbody
  have hgen : GEN_LEN = 4 := rfl
  have hdrop : (framed np reserved body ++ rest).drop (GEN_LEN + body.length) = rest :=
    List.drop_left' (framed_length np reserved body)
  have htlen : ((GEN_LEN + body.length + tlen : ℕ) : ℤ) - (GEN_LEN + body.length : ℕ) = tlen := by
    omega
  have hgo : ¬(¬(0 : ℤ) < (GEN_LEN + body.length + tlen : ℕ) ∨ type = ISAKMP_NPTYPE_NONE) := by
    intro h
    rcases h with h | h
    · omega
    · exact htype h
  rw [parseLoop, if_neg hgo, if_neg (by omega)]
  simp only [hnext, hplen, hdrop, htlen]
  rw [if_neg (by omega)]

/-- The header of the first payload. -/
theorem payload_header (np : ℕ) (body rest : Buf) (hnp : np < 256)
    (hlen : GEN_LEN + body.length < 65536) :
    (byteAt (payload np body ++ rest) 0).toNat = np ∧
      shortAt (payload np body ++ rest) 2 = GEN_LEN + body.length :=
  framed_header np 0 body rest hnp hlen

theorem parseLoop_payload (k type np : ℕ) (body rest : Buf) (tlen : ℕ) (htype : type ≠ 0)
    (hnp : np < 256) (hlen : GEN_LEN + body.length < 65536) (hbody : body ≠ []) :
    parseLoop (k + 1) type (payload np body ++ rest) (GEN_LEN + body.length + tlen : ℕ) =
      (parseLoop k np rest tlen).map
        ({ type := type, ptr := payload np body ++ rest, len := GEN_LEN + body.length } :: ·) :=
  parseLoop_framed k type np 0 body rest tlen htype hnp hlen hbody

theorem parseLoop_chain (type : ℕ) (htype : type ≠ 0) (hlt : type < 256) (bodies : List Buf)
    (hbodies : ∀ body ∈ bodies, body ≠ [] ∧ GEN_LEN + body.length < 65536) (rest : Buf) (k : ℕ)
    (hk : (chain type bodies).length ≤ k) :
    parseLoop k type (chain type bodies ++ rest) (chain type bodies).length =
      some (parses type bodies rest) := by
  induction bodies generalizing k with
  | nil => exact parseLoop_end k type _
  | cons body bodies ih =>
    obtain ⟨hne, hlen⟩ := hbodies body List.mem_cons_self
    have hgen : GEN_LEN = 4 := rfl
    cases bodies with
    | nil =>
      rw [show chain type [body] = payload ISAKMP_NPTYPE_NONE body from rfl, payload_length] at hk ⊢
      obtain ⟨k, rfl⟩ : ∃ k', k = k' + 1 := ⟨k - 1, by omega⟩
      apply (parseLoop_payload k type ISAKMP_NPTYPE_NONE body rest 0 htype (by decide) hlen hne).trans
      rw [show ((0 : ℕ) : ℤ) = 0 from rfl, parseLoop_end]
      rfl
    | cons next bodies =>
      have hcons : chain type (body :: next :: bodies) =
          payload type body ++ chain type (next :: bodies) := rfl
      rw [hcons, List.length_append, payload_length] at hk ⊢
      obtain ⟨k, rfl⟩ : ∃ k', k = k' + 1 := ⟨k - 1, by omega⟩
      rw [List.append_assoc,
        parseLoop_payload k type type body _ _ htype hlt hlen hne,
        ih (fun b hb => hbodies b (List.mem_cons_of_mem _ hb)) k (by omega)]
      simp [parses, hcons]

theorem isakmpParsewoh_chain (type : ℕ) (htype : type ≠ 0) (hlt : type < 256) (bodies : List Buf)
    (hbodies : ∀ body ∈ bodies, body ≠ [] ∧ GEN_LEN + body.length < 65536) (rest : Buf) :
    isakmpParsewoh type (chain type bodies ++ rest) (chain type bodies).length =
      some (parses type bodies rest) :=
  parseLoop_chain type htype hlt bodies hbodies rest _ (by simp)

/-- Each payload found starts with its body, and more memory follows. -/
theorem parses_forall₂ (type : ℕ) (hlt : type < 256) (bodies : List Buf) (rest : Buf) :
    List.Forall₂ (fun (pa : IsakmpParse) body =>
      pa.type = type ∧ ∃ np more, np < 256 ∧ pa.ptr = payload np body ++ more)
      (parses type bodies rest) bodies := by
  induction bodies with
  | nil => exact .nil
  | cons body bodies ih =>
    apply List.Forall₂.cons ⟨rfl, ?_⟩ ih
    cases bodies with
    | nil => exact ⟨ISAKMP_NPTYPE_NONE, rest, by decide, rfl⟩
    | cons next bodies =>
      exact ⟨type, chain type (next :: bodies) ++ rest, hlt, List.append_assoc _ _ _⟩

theorem body_length_le (type : ℕ) (bodies : List Buf) (body : Buf) (h : body ∈ bodies) :
    GEN_LEN + body.length ≤ (chain type bodies).length := by
  rw [chain_length]
  induction bodies with
  | nil => cases h
  | cons b bodies ih =>
    have hcons : links type (b :: bodies) = payload type b ++ links type bodies := rfl
    rw [hcons, List.length_append, payload_length]
    rcases List.mem_cons.mp h with rfl | h
    · omega
    · have hle := ih h
      omega

end WanStack.Racoon.Proposal
