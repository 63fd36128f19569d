import WanStack.Aftr.FragInv

set_option autoImplicit false

/-!
# Collecting the fragments of one datagram

`Collects` describes a head that holds some fragments of a datagram, `Tracks`
a queue of heads in which at most one is the datagram's. Both sides, IPv4 and
IPv6, use them with their own `piece` and header length.
-/
namespace WanStack.Aftr
open Reassembly

/-- The head holds exactly the pieces `got` of the payload cut in `blocks`,
    and its header is `hdr` once the first piece is there. -/
structure Collects (blocks : List Buf) (hdr : Buf) (f : Frag) (got : List (Piece UInt8)) : Prop where
  sub : f.fraglist.Sublist (cut 0 blocks)
  mem : ∀ y, y ∈ f.fraglist ↔ y ∈ got
  off : f.off = 0 ↔ ∃ y ∈ got, y.off = 0
  buf : f.off = 0 → f.buf = hdr

/-- A new head takes its offset and its header from the first fragment seen. -/
theorem Collects.start {blocks : List Buf} {hdr : Buf} {f : Frag} {x : Piece UInt8}
    (hl : f.fraglist = []) (hoff : f.off = x.off) (hx : x ∈ cut 0 blocks)
    (hhdr : x.off = 0 → f.buf = hdr) (hdr' : Buf) :
    ∃ l, place x none f.fraglist = some l ∧ Collects blocks hdr (f.add hdr' x l) [x] := by
  have hadd : f.add hdr' x [x] = { f with fraglist := [x] } :=
    if_neg fun h => h.2 (hoff.trans h.1)
  refine ⟨[x], by rw [hl]; rfl, ?_⟩
  rw [hadd]
  refine ⟨List.singleton_sublist.mpr hx, fun _ => Iff.rfl, ?_, fun h0 => hhdr (hoff ▸ h0)⟩
  simp [hoff]

theorem Collects.congr {blocks : List Buf} {hdr : Buf} {f f' : Frag} {got got' : List (Piece UInt8)}
    (h : Collects blocks hdr f got) (hl : f'.fraglist = f.fraglist) (ho : f'.off = f.off)
    (hb : f'.buf = f.buf) (hg : ∀ y, y ∈ got' ↔ y ∈ got) : Collects blocks hdr f' got' := by
  refine ⟨hl ▸ h.sub, fun y => ?_, ?_, fun h0 => hb.trans (h.buf (ho ▸ h0))⟩
  · rw [hl, h.mem, hg]
  · rw [ho, h.off]
    simp only [hg]

section
variable {blocks : List Buf} (hne : ∀ b ∈ blocks, b ≠ []) {hdr : Buf} {f : Frag}
  {got : List (Piece UInt8)} {x : Piece UInt8}
include hne

theorem Collects.place_old (h : Collects blocks hdr f got) (hx : x ∈ cut 0 blocks)
    (hmem : x ∈ got) : place x none f.fraglist = none :=
  (place_cut 0 blocks hne none (by simp) _ h.sub x hx).1 ((h.mem x).mpr hmem)

theorem Collects.place_new (h : Collects blocks hdr f got) (hx : x ∈ cut 0 blocks)
    (hmem : x ∉ got) {hdr' : Buf} (hhdr : x.off = 0 → hdr' = hdr) :
    ∃ l, place x none f.fraglist = some l ∧ Collects blocks hdr (f.add hdr' x l) (x :: got) := by
  obtain ⟨l, hl, hsub, hin⟩ :=
    (place_cut 0 blocks hne none (by simp) _ h.sub x hx).2 (fun hm => hmem ((h.mem x).mp hm))
  refine ⟨l, hl, ⟨by simpa using hsub, ?_, ?_, ?_⟩⟩
  · intro y
    rw [Frag.add_fraglist, hin, h.mem, List.mem_cons]
  · unfold Frag.add
    split
    · rename_i hlate
      exact ⟨fun _ => ⟨x, List.mem_cons_self .., hlate.1⟩, fun _ => hlate.1⟩
    · rename_i hlate
      constructor
      · intro h0
        obtain ⟨y, hy, hy0⟩ := h.off.mp h0
        exact ⟨y, List.mem_cons_of_mem _ hy, hy0⟩
      · rintro ⟨y, hy, hy0⟩
        rcases List.mem_cons.mp hy with rfl | hy
        · exact Decidable.not_not.mp fun hf => hlate ⟨hy0, hf⟩
        · exact h.off.mpr ⟨y, hy, hy0⟩
  · unfold Frag.add
    split
    · rename_i hlate
      exact fun _ => hhdr hlate.1
    · exact h.buf

/-- The test after a piece is added: complete exactly when nothing is missing. -/
theorem Collects.whole (h : Collects blocks hdr f got) (hb : blocks ≠ [])
    (hall : ∀ y ∈ cut 0 blocks, y ∈ got) :
    f.off = 0 ∧ f.buf = hdr ∧ joined 0 true f.fraglist = some blocks.flatten.length ∧
      f.fraglist.flatMap Piece.data = blocks.flatten := by
  have hcut : f.fraglist = cut 0 blocks := by
    refine h.sub.eq_of_length_le ?_
    have hsub : cut 0 blocks ⊆ f.fraglist := fun y hy => (h.mem y).mpr (hall y hy)
    exact (List.subperm_of_subset (cut_nodup hne) hsub).length_le
  have hoff : f.off = 0 := by
    obtain ⟨b, bs, rfl⟩ := List.exists_cons_of_ne_nil hb
    exact h.off.mpr ⟨⟨0, !bs.isEmpty, b⟩, hall _ (by simp [cut]), rfl⟩
  have hmore : true = !blocks.isEmpty := by
    cases blocks with
    | nil => exact absurd rfl hb
    | cons _ _ => rfl
  refine ⟨hoff, h.buf hoff, ?_, by rw [hcut, cut_data]⟩
  simpa using (joined_cut 0 blocks hne true hmore _ h.sub).1 hcut

theorem Collects.missing (h : Collects blocks hdr f got) (hb : blocks ≠ [])
    (hmiss : ¬ ∀ y ∈ cut 0 blocks, y ∈ got) : joined 0 true f.fraglist = none := by
  have hmore : true = !blocks.isEmpty := by
    cases blocks with
    | nil => exact absurd rfl hb
    | cons _ _ => rfl
  refine (joined_cut 0 blocks hne true hmore _ h.sub).2 fun hcut => hmiss fun y hy => ?_
  exact (h.mem y).mp (hcut ▸ hy)

end

/-- The fragments of one datagram in order of offset. -/
structure Fragments (piece : Buf → Piece UInt8) (hdrlen : ℕ) where
  first : Buf
  rest : List Buf
  header : ∀ b ∈ first :: rest, hdrlen < b.length
  pieces : (first :: rest).map piece = cut 0 ((first :: rest).map (List.drop hdrlen))

namespace Fragments
variable {piece : Buf → Piece UInt8} {hdrlen : ℕ}

def frags (d : Fragments piece hdrlen) : List Buf := d.first :: d.rest
def blocks (d : Fragments piece hdrlen) : List Buf := d.frags.map (List.drop hdrlen)
def payload (d : Fragments piece hdrlen) : Buf := d.blocks.flatten

variable (d : Fragments piece hdrlen)

theorem blocks_ne : ∀ b ∈ d.blocks, b ≠ [] := by
  intro b hb
  obtain ⟨f, hf, rfl⟩ := List.mem_map.mp hb
  have := d.header f hf
  exact List.ne_nil_of_length_pos (by rw [List.length_drop]; omega)

theorem map_piece : d.frags.map piece = cut 0 d.blocks := d.pieces

theorem piece_mem {b : Buf} (hb : b ∈ d.frags) : piece b ∈ cut 0 d.blocks :=
  d.map_piece ▸ List.mem_map_of_mem hb

theorem exists_frag {y : Piece UInt8} (hy : y ∈ cut 0 d.blocks) : ∃ b ∈ d.frags, piece b = y := by
  rw [← d.map_piece] at hy
  simpa using hy

theorem piece_inj {a b : Buf} (ha : a ∈ d.frags) (hb : b ∈ d.frags) (h : piece a = piece b) :
    a = b := by
  have hnd : (d.frags.map piece).Nodup := d.map_piece ▸ cut_nodup d.blocks_ne
  exact List.inj_on_of_nodup_map hnd ha hb h

theorem first_mem : d.first ∈ d.frags := List.mem_cons_self ..

theorem first_off : (piece d.first).off = 0 := by
  have := d.pieces
  simp only [List.map_cons, cut] at this
  rw [(List.cons.inj this).1]

theorem eq_first {b : Buf} (hb : b ∈ d.frags) (h : (piece b).off = 0) : b = d.first := by
  refine d.piece_inj hb d.first_mem
    (cut_inj_off d.blocks_ne (d.piece_mem hb) (d.piece_mem d.first_mem) ?_)
  rw [h, d.first_off]

/-- A fragment other than the last carries a multiple of eight bytes. -/
theorem more_eight (h8 : ∀ b, (piece b).off % 8 = 0) {b : Buf} (hb : b ∈ d.frags) :
    ((piece b).more && (piece b).data.length % 8 != 0) = false := by
  cases hm : (piece b).more with
  | false => rfl
  | true =>
    obtain ⟨y, hy, hoff⟩ := cut_next (d.piece_mem hb) hm
    obtain ⟨c, -, rfl⟩ := d.exists_frag hy
    have h1 := h8 b
    have h2 := h8 c
    simp only [Bool.true_and, bne_eq_false_iff_eq]
    omega

theorem all_iff {got : List Buf} (hgot : ∀ b ∈ got, b ∈ d.frags) :
    (∀ y ∈ cut 0 d.blocks, y ∈ got.map piece) ↔ ∀ b ∈ d.frags, b ∈ got := by
  constructor
  · intro h b hb
    obtain ⟨c, hc, heq⟩ := List.mem_map.mp (h _ (d.piece_mem hb))
    rwa [← d.piece_inj (hgot c hc) hb heq]
  · intro h y hy
    obtain ⟨b, hb, rfl⟩ := d.exists_frag hy
    exact List.mem_map_of_mem (h b hb)

end Fragments

/-- The queue `heads` holds `got` of the datagram, and nothing when that is
    empty. `mine` picks the heads of the datagram. -/
structure Tracks {piece : Buf → Piece UInt8} {hdrlen : ℕ} (d : Fragments piece hdrlen)
    (mine : Frag → Prop) (heads : List Frag) (got : List Buf) : Prop where
  some_missing : ¬ ∀ b ∈ d.frags, b ∈ got
  frags : ∀ b ∈ got, b ∈ d.frags
  head : ∀ f ∈ heads, mine f → Collects d.blocks (d.first.take hdrlen) f (got.map piece)
  none_iff : (∀ f ∈ heads, ¬ mine f) ↔ got = []

section
variable {piece : Buf → Piece UInt8} {hdrlen : ℕ} {d : Fragments piece hdrlen}
  {mine : Frag → Prop} {heads heads' : List Frag} {got : List Buf}

theorem Tracks.empty (h : ∀ f ∈ heads, ¬ mine f) : Tracks d mine heads [] :=
  ⟨fun hall => absurd (hall d.first d.first_mem) (by simp), by simp,
    fun f hf hm => absurd hm (h f hf), ⟨fun _ => rfl, fun _ => h⟩⟩

theorem Tracks.same (h : Tracks d mine heads got)
    (hsame : ∀ f, mine f → (f ∈ heads' ↔ f ∈ heads)) : Tracks d mine heads' got := by
  refine ⟨h.some_missing, h.frags, fun f hf hm => h.head f ((hsame f hm).mp hf) hm, ?_⟩
  rw [← h.none_iff]
  constructor
  · exact fun hno f hf hm => hno f ((hsame f hm).mpr hf) hm
  · exact fun hno f hf hm => hno f ((hsame f hm).mp hf) hm

/-- The queue once `g` is the head of the datagram and collects `got`. -/
theorem Tracks.of_head {g : Frag} (hmiss : ¬ ∀ b ∈ d.frags, b ∈ got) (hgot : ∀ b ∈ got, b ∈ d.frags)
    (hne : got ≠ []) (hg : ∀ f ∈ heads, mine f → f = g) (hgm : g ∈ heads ∧ mine g)
    (hc : Collects d.blocks (d.first.take hdrlen) g (got.map piece)) : Tracks d mine heads got :=
  ⟨hmiss, hgot, fun f hf hm => hg f hf hm ▸ hc,
    ⟨fun hno => absurd hgm.2 (hno g hgm.1), fun h => absurd h hne⟩⟩

/-- A fragment is added to the head it belongs to, or to a new one. -/
theorem Tracks.place (h : Tracks d mine heads got) {buf : Buf} (hb : buf ∈ d.frags) {f : Frag}
    (hf : (∃ g ∈ heads, mine g ∧ f.fraglist = g.fraglist ∧ f.off = g.off ∧ f.buf = g.buf) ∨
      ((∀ g ∈ heads, ¬ mine g) ∧ f.fraglist = [] ∧ f.off = (piece buf).off ∧
        f.buf = buf.take hdrlen)) :
    (buf ∈ got ∧ place (piece buf) none f.fraglist = none ∧
      Collects d.blocks (d.first.take hdrlen) f ((buf :: got).map piece)) ∨
    (buf ∉ got ∧ ∃ l, place (piece buf) none f.fraglist = some l ∧
      Collects d.blocks (d.first.take hdrlen) (f.add (buf.take hdrlen) (piece buf) l)
        ((buf :: got).map piece)) := by
  have hx := d.piece_mem hb
  have hhdr : (piece buf).off = 0 → buf.take hdrlen = d.first.take hdrlen :=
    fun h0 => by rw [d.eq_first hb h0]
  have hmem : piece buf ∈ got.map piece ↔ buf ∈ got := by
    constructor
    · intro hm
      obtain ⟨c, hc, heq⟩ := List.mem_map.mp hm
      rwa [← d.piece_inj (h.frags c hc) hb heq]
    · exact List.mem_map_of_mem
  obtain ⟨g, hg, hgm, hl, ho, hbuf⟩ | ⟨hno, hl, ho, hbuf⟩ := hf
  · have hc : Collects d.blocks (d.first.take hdrlen) f (got.map piece) :=
      (h.head g hg hgm).congr hl ho hbuf fun _ => Iff.rfl
    by_cases hin : buf ∈ got
    · refine .inl ⟨hin, hc.place_old d.blocks_ne hx (hmem.mpr hin),
        hc.congr rfl rfl rfl fun y => ?_⟩
      rw [List.map_cons, List.mem_cons]
      exact ⟨fun hy => hy.elim (fun heq => heq ▸ hmem.mpr hin) id, .inr⟩
    · exact .inr ⟨hin, hc.place_new d.blocks_ne hx (fun hm => hin (hmem.mp hm)) hhdr⟩
  · obtain rfl : got = [] := h.none_iff.mp hno
    exact .inr ⟨by simp, Collects.start hl ho hx (fun h0 => hbuf.trans (hhdr h0)) _⟩

theorem Tracks.not_all (h : Tracks d mine heads got) {buf : Buf} (hin : buf ∈ got) :
    ¬ ∀ b ∈ d.frags, b ∈ buf :: got := fun hall => h.some_missing fun b hb =>
  (List.mem_cons.mp (hall b hb)).elim (fun heq => heq ▸ hin) id

end

end WanStack.Aftr
