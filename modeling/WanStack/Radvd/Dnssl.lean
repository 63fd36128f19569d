import Mathlib.Data.List.TakeWhile
import WanStack.Radvd.Radvdump

set_option autoImplicit false

/-!
# Suffix lists on the wire

What `add_ra_options_dnssl` writes for names with labels of 1 to 63 bytes, and
what the loop of `print_ff` makes of it.
-/
namespace WanStack.Radvd
open Aftr (Buf byteAt bytesAt shortAt)

/-- A label of a domain name; a string has no zero byte. -/
structure ValidLabel (l : Buf) : Prop where
  pos : 1 ≤ l.length
  short : l.length ≤ 63
  noDot : 46 ∉ l
  noNul : 0 ∉ l

def joinDots : List Buf → Buf
  | [] => []
  | [l] => l
  | l :: l' :: ls => l ++ 46 :: joinDots (l' :: ls)

/-- The labels of a name, joined with dots. -/
def IsName (s : Buf) (labels : List Buf) : Prop :=
  labels ≠ [] ∧ (∀ l ∈ labels, ValidLabel l) ∧ s = joinDots labels

def encodeLabel (l : Buf) : Buf := UInt8.ofNat l.length :: l

def encodeName (labels : List Buf) : Buf := labels.flatMap encodeLabel ++ [0]

theorem ValidLabel.toNat {l : Buf} (h : ValidLabel l) : (UInt8.ofNat l.length).toNat = l.length := by
  have := h.short
  simp
  omega

theorem ValidLabel.ne_nil {l : Buf} (h : ValidLabel l) : l ≠ [] := by
  intro hnil
  have := h.pos
  simp [hnil] at this

theorem joinDots_ne_nil {labels : List Buf} (hne : labels ≠ []) (h : ∀ l ∈ labels, ValidLabel l) :
    joinDots labels ≠ [] := by
  match labels, hne with
  | [l], _ => exact (h l (by simp)).ne_nil
  | l :: l' :: ls, _ => simp [joinDots]

theorem length_joinDots {labels : List Buf} (hne : labels ≠ []) :
    (joinDots labels).length + 2 = (encodeName labels).length := by
  induction labels with
  | nil => exact absurd rfl hne
  | cons l ls ih =>
    cases ls with
    | nil => simp [joinDots, encodeName, encodeLabel]
    | cons l' ls =>
      have hrest := ih (by simp)
      simp only [encodeName, List.flatMap_cons, List.length_append, encodeLabel,
        List.length_cons] at hrest ⊢
      simp only [joinDots, List.length_append, List.length_cons]
      omega

/-! ### Writing -/

theorem takeWhile_label {l rest : Buf} (h : ValidLabel l) (hrest : rest = [] ∨ rest.head? = some 46) :
    (l ++ rest).takeWhile (· ≠ 46) = l := by
  have hinside : ∀ x ∈ l, decide (x ≠ 46) = true := by
    intro x hx
    simp only [decide_eq_true_eq]
    intro hdot
    exact h.noDot (hdot ▸ hx)
  rw [List.takeWhile_append_of_pos hinside]
  rcases hrest with rfl | hrest
  · simp
  · cases rest with
    | nil => simp
    | cons x rest =>
      obtain rfl := Option.some.inj hrest
      simp

/-- A name, with or without a dot at its end. -/
theorem serializeLabels_text (labels : List Buf) (h : ∀ l ∈ labels, ValidLabel l)
    (hne : labels ≠ []) {dot : Buf} (hdot : dot = [] ∨ dot = [46]) (k : ℕ)
    (hk : (joinDots labels ++ dot).length ≤ k) :
    serializeLabels k (joinDots labels ++ dot) = some (encodeName labels) := by
  induction labels generalizing k with
  | nil => exact absurd rfl hne
  | cons l ls ih =>
    have hl := h l (by simp)
    have hjoin := joinDots_ne_nil hne h
    obtain ⟨x, xs, hxs⟩ := List.exists_cons_of_ne_nil (List.append_ne_nil_of_left_ne_nil hjoin dot)
    have hpos : 0 < (joinDots (l :: ls) ++ dot).length := by simp [hxs]
    obtain ⟨k, rfl⟩ : ∃ j, k = j + 1 := ⟨k - 1, by omega⟩
    have hround : ∀ tail : Buf, joinDots (l :: ls) ++ dot = l ++ tail →
        (tail = [] ∨ tail.head? = some 46) →
        serializeLabels (k + 1) (joinDots (l :: ls) ++ dot) =
          (serializeLabels k tail.tail).map fun more =>
            encodeLabel l ++ (if tail.tail = [] then [0] else []) ++ more := by
      intro tail htail hhead
      have hfound := takeWhile_label hl hhead
      rw [hxs, serializeLabels, ← hxs, htail, hfound, hl.toNat, List.drop_left, List.take_left]
      · rcases hhead with rfl | hhead
        · simp [encodeLabel]
        · simp [hhead, encodeLabel]
      · exact List.cons_ne_nil x xs
    cases ls with
    | nil =>
      have hnil : ∀ j, serializeLabels j [] = some [] := fun j => by cases j <;> rfl
      have htail : dot.tail = [] := by
        rcases hdot with rfl | rfl <;> rfl
      have hhead : dot = [] ∨ dot.head? = some 46 := by
        rcases hdot with rfl | rfl
        · exact Or.inl rfl
        · exact Or.inr rfl
      rw [hround dot (by simp [joinDots]) hhead, htail, hnil]
      simp [encodeName]
    | cons l' ls =>
      have hls : ∀ m ∈ l' :: ls, ValidLabel m := fun m hm => h m (List.mem_cons_of_mem _ hm)
      have hmore := List.append_ne_nil_of_left_ne_nil (joinDots_ne_nil (by simp) hls) dot
      rw [hround (46 :: (joinDots (l' :: ls) ++ dot)) (by simp [joinDots]) (Or.inr rfl), List.tail_cons,
        if_neg hmore, ih hls (by simp)]
      · simp [encodeName]
      · have := hl.pos
        simp only [joinDots, List.length_append, List.length_cons] at hk ⊢
        omega

theorem serializeLabels_joinDots (labels : List Buf) (h : ∀ l ∈ labels, ValidLabel l)
    (hne : labels ≠ []) (k : ℕ) (hk : (joinDots labels).length ≤ k) :
    serializeLabels k (joinDots labels) = some (encodeName labels) := by
  have htext := serializeLabels_text labels h hne (Or.inl rfl) k (by rw [List.append_nil]; exact hk)
  rw [List.append_nil] at htext
  exact htext

/-- The names of a list, each with its labels. -/
def Named (dnssl : AdvDNSSL) (names : List (List Buf)) : Prop :=
  List.Forall₂ IsName dnssl.AdvDNSSLSuffixes names

theorem serializeDomainNames_named {dnssl : AdvDNSSL} {names : List (List Buf)}
    (h : Named dnssl names) :
    serializeDomainNames dnssl = some (names.map encodeName).flatten := by
  unfold serializeDomainNames
  have hall : dnssl.AdvDNSSLSuffixes.mapM (fun s => serializeLabels s.length s) =
      some (names.map encodeName) := by
    unfold Named at h
    generalize dnssl.AdvDNSSLSuffixes = suffixes at h
    induction h with
    | nil => rfl
    | cons hname _ ih =>
      obtain ⟨hne, hvalid, rfl⟩ := hname
      rw [List.mapM_cons, serializeLabels_joinDots _ hvalid hne _ (Nat.le_refl _), ih]
      rfl
  rw [hall]
  rfl

/-! ### Reading -/

def suffixOf : Act Line → Option Buf
  | .emit (.suffix s) => some s
  | _ => none

/-- The suffixes that are printed. -/
def printedSuffixes (acts : List (Act Line)) : List Buf := acts.filterMap suffixOf

section Printed
variable (acts acts' : List (Act Line)) (off n stop left : ℕ)

@[simp] theorem printedSuffixes_nil : printedSuffixes [] = [] := rfl
@[simp] theorem printedSuffixes_read :
    printedSuffixes (.read off n left :: acts) = printedSuffixes acts := rfl
@[simp] theorem printedSuffixes_label :
    printedSuffixes (.label off n stop left :: acts) = printedSuffixes acts := rfl
@[simp] theorem printedSuffixes_suffix (s : Buf) :
    printedSuffixes (.emit (.suffix s) :: acts) = s :: printedSuffixes acts := rfl
@[simp] theorem printedSuffixes_oversized :
    printedSuffixes (.emit .oversizedSuffix :: acts) = printedSuffixes acts := rfl
@[simp] theorem printedSuffixes_append :
    printedSuffixes (acts ++ acts') = printedSuffixes acts ++ printedSuffixes acts' :=
  List.filterMap_append

end Printed

/-- The bytes from an offset on are `rest`, up to the end of the option. -/
structure Ahead (opt : Buf) (limit offset : ℕ) (rest : Buf) : Prop where
  bytes : opt.drop (8 + offset) = rest
  ends : limit = offset + rest.length

section Loop
variable {opt : Buf} {limit offset k : ℕ} {rest : Buf}

theorem Ahead.byteAt {x : UInt8} (h : Ahead opt limit offset (x :: rest)) :
    Aftr.byteAt opt (8 + offset) = x := by
  have hget : opt[8 + offset]? = some x := by
    rw [← List.head?_drop, h.bytes]
    rfl
  rw [Aftr.byteAt, List.getD_eq_getElem?_getD, hget]
  rfl

theorem Ahead.skip {xs : Buf} (h : Ahead opt limit offset (xs ++ rest)) :
    Ahead opt limit (offset + xs.length) rest where
  bytes := by
    rw [← Nat.add_assoc, ← List.drop_drop, h.bytes, List.drop_left]
  ends := by
    have := h.ends
    rw [List.length_append] at this
    omega

/-- A suffix with one more label. -/
def extend (suffix label : Buf) : Buf := (if suffix ≠ [] then suffix ++ [46] else suffix) ++ label

/-- A byte of padding, or the end of a suffix. -/
theorem loop_zero (h : Ahead opt limit offset (0 :: rest)) (hk : limit ≤ offset + (k + 1))
    (suffix : Buf) :
    limit ≤ offset + 1 + k ∧ Ahead opt limit (offset + 1) rest ∧
      printedSuffixes (dumpDnsslLoop opt limit (k + 1) offset suffix) =
        (if suffix = [] then [] else [suffix]) ++
          printedSuffixes (dumpDnsslLoop opt limit k (offset + 1) []) := by
  have hlimit := h.ends
  simp only [List.length_cons] at hlimit
  have hskip : Ahead opt limit (offset + [0].length) rest :=
    Ahead.skip (show Ahead opt limit offset ([0] ++ rest) from h)
  refine ⟨by omega, hskip, ?_⟩
  rw [dumpDnsslLoop, if_neg (by omega)]
  simp only [h.byteAt]
  by_cases hs : suffix = []
  · subst hs
    simp
  · simp [hs]

theorem loop_padding (m : ℕ) (h : Ahead opt limit offset (List.replicate m 0))
    (hk : limit ≤ offset + k) : printedSuffixes (dumpDnsslLoop opt limit k offset []) = [] := by
  induction m generalizing offset k with
  | zero =>
    have hlimit := h.ends
    simp only [List.length_replicate, Nat.add_zero] at hlimit
    unfold dumpDnsslLoop
    rw [if_pos (by omega)]
    rfl
  | succ m ih =>
    have hlimit := h.ends
    simp only [List.length_replicate] at hlimit
    obtain ⟨k, rfl⟩ : ∃ j, k = j + 1 := ⟨k - 1, by omega⟩
    rw [List.replicate_succ] at h
    obtain ⟨hk', h', hprinted⟩ := loop_zero h hk []
    rw [hprinted, ih h' hk']
    rfl

theorem strncatText_label {l : Buf} (hl : ValidLabel l) : strncatText (l ++ rest) l.length = l := by
  have hinside : ∀ x ∈ l, decide (x ≠ 0) = true := by
    intro x hx
    simp only [decide_eq_true_eq]
    intro hnul
    exact hl.noNul (hnul ▸ hx)
  rw [strncatText, List.take_left, ← List.append_nil l, List.takeWhile_append_of_pos (by simpa using hinside)]
  simp

/-- A label is put behind the suffix, unless the two are too long together. -/
theorem loop_label {l : Buf} (hl : ValidLabel l) (h : Ahead opt limit offset (encodeLabel l ++ rest))
    (hk : limit ≤ offset + (k + 1)) (suffix : Buf) (hs : suffix.length ≤ 255) :
    limit ≤ offset + (encodeLabel l).length + k ∧
      Ahead opt limit (offset + (encodeLabel l).length) rest ∧
      printedSuffixes (dumpDnsslLoop opt limit (k + 1) offset suffix) =
        if (extend suffix l).length ≤ 255 then
          printedSuffixes (dumpDnsslLoop opt limit k (offset + (encodeLabel l).length)
            (extend suffix l))
        else [] := by
  have hlimit := h.ends
  have hpos := hl.pos
  have hshort := hl.short
  simp only [encodeLabel, List.cons_append, List.length_cons, List.length_append] at hlimit
  have hbyte : byteAt opt (8 + offset) = UInt8.ofNat l.length := h.byteAt
  have hsrc : opt.drop (8 + (offset + 1)) = l ++ rest := by
    have := h.bytes
    rw [← Nat.add_assoc, ← List.drop_drop, this]
    rfl
  refine ⟨by simp only [encodeLabel, List.length_cons]; omega, h.skip, ?_⟩
  rw [dumpDnsslLoop, if_neg (by omega)]
  simp only [hbyte, hl.toNat, hsrc, strncatText_label hl]
  have hzero : ¬ l.length = 0 := by omega
  have hnext : offset + 1 + l.length = offset + (encodeLabel l).length := by
    simp only [encodeLabel, List.length_cons]
    omega
  have hroom : 256 - suffix.length < l.length + 2 ↔ ¬ (extend suffix l).length ≤ 255 := by
    by_cases hnil : suffix = []
    · subst hnil
      simp only [extend, ne_eq, not_true_eq_false, if_false, List.nil_append, List.length_nil]
      omega
    · simp only [extend, ne_eq, hnil, not_false_eq_true, if_true, List.length_append,
        List.length_singleton]
      omega
  by_cases hfits : (extend suffix l).length ≤ 255
  · have hnot : ¬ 256 - suffix.length < l.length + 2 := fun hlt => hroom.mp hlt hfits
    simp only [hzero, hnot, hfits, hnext, if_false, if_true, printedSuffixes_read,
      printedSuffixes_label]
    rfl
  · have hlong := hroom.mpr hfits
    simp only [hzero, hlong, hfits, if_false, if_true, printedSuffixes_read,
      printedSuffixes_oversized, printedSuffixes_nil]

theorem length_le_extend (labels : List Buf) (suffix : Buf) :
    suffix.length ≤ (labels.foldl extend suffix).length := by
  induction labels generalizing suffix with
  | nil => exact Nat.le_refl _
  | cons l ls ih =>
    refine Nat.le_trans ?_ (ih (extend suffix l))
    unfold extend
    split <;> simp

/-- The labels of one name: the suffix is printed, or it is too long and the
    loop ends. -/
theorem loop_labels (labels : List Buf) (hvalid : ∀ l ∈ labels, ValidLabel l)
    (h : Ahead opt limit offset (labels.flatMap encodeLabel ++ 0 :: rest))
    (hk : limit ≤ offset + k) (suffix : Buf) (hs : suffix.length ≤ 255)
    (hne : labels.foldl extend suffix ≠ []) :
    ((labels.foldl extend suffix).length ≤ 255 →
      ∃ k' offset', limit ≤ offset' + k' ∧ Ahead opt limit offset' rest ∧
        printedSuffixes (dumpDnsslLoop opt limit k offset suffix) =
          labels.foldl extend suffix :: printedSuffixes (dumpDnsslLoop opt limit k' offset' [])) ∧
      (255 < (labels.foldl extend suffix).length →
        printedSuffixes (dumpDnsslLoop opt limit k offset suffix) = []) := by
  induction labels generalizing k offset suffix with
  | nil =>
    have hlimit := h.ends
    simp only [List.flatMap_nil, List.nil_append, List.length_cons] at hlimit
    obtain ⟨k, rfl⟩ : ∃ j, k = j + 1 := ⟨k - 1, by omega⟩
    obtain ⟨hk', h', hprinted⟩ := loop_zero h hk suffix
    change suffix ≠ [] at hne
    constructor
    · intro _
      refine ⟨k, offset + 1, hk', h', ?_⟩
      rw [hprinted, if_neg hne]
      rfl
    · intro hlong
      exact absurd hs (Nat.not_le.mpr hlong)
  | cons l ls ih =>
    have hl := hvalid l List.mem_cons_self
    have hls : ∀ m ∈ ls, ValidLabel m := fun m hm => hvalid m (List.mem_cons_of_mem _ hm)
    have hlimit := h.ends
    simp only [List.length_append, List.length_cons] at hlimit
    obtain ⟨k, rfl⟩ : ∃ j, k = j + 1 := ⟨k - 1, by omega⟩
    rw [List.flatMap_cons, List.append_assoc] at h
    obtain ⟨hk', h', hprinted⟩ := loop_label hl h hk suffix hs
    have hgrows := length_le_extend ls (extend suffix l)
    by_cases hfits : (extend suffix l).length ≤ 255
    · rw [if_pos hfits] at hprinted
      rw [hprinted]
      exact ih hls h' hk' (extend suffix l) hfits hne
    · rw [if_neg hfits] at hprinted
      refine ⟨fun hall => absurd hall ?_, fun _ => hprinted⟩
      change ¬ (ls.foldl extend (extend suffix l)).length ≤ 255
      omega

theorem foldl_extend_ne (ls : List Buf) (suffix : Buf) (hne : suffix ≠ []) (hls : ls ≠ []) :
    ls.foldl extend suffix = suffix ++ 46 :: joinDots ls := by
  induction ls generalizing suffix with
  | nil => exact absurd rfl hls
  | cons l ls ih =>
    have hext : extend suffix l = suffix ++ 46 :: l := by simp [extend, hne]
    cases ls with
    | nil => exact hext
    | cons l' ls =>
      rw [List.foldl_cons, hext, ih (suffix ++ 46 :: l) (by simp) (by simp)]
      simp [joinDots]

theorem foldl_extend {labels : List Buf} (hvalid : ∀ l ∈ labels, ValidLabel l) :
    labels.foldl extend [] = joinDots labels := by
  cases labels with
  | nil => rfl
  | cons l ls =>
    have hext : extend [] l = l := rfl
    cases ls with
    | nil => rfl
    | cons l' ls =>
      rw [List.foldl_cons, hext, foldl_extend_ne _ l (hvalid l List.mem_cons_self).ne_nil (by simp)]
      rfl

/-- Names and padding: the suffixes in front of the first that is too long. -/
theorem loop_names (names : List (List Buf))
    (hnames : ∀ labels ∈ names, labels ≠ [] ∧ ∀ l ∈ labels, ValidLabel l) (m : ℕ)
    (h : Ahead opt limit offset ((names.map encodeName).flatten ++ List.replicate m 0))
    (hk : limit ≤ offset + k) :
    printedSuffixes (dumpDnsslLoop opt limit k offset []) =
      (names.map joinDots).takeWhile fun s => s.length ≤ 255 := by
  induction names generalizing k offset with
  | nil => exact loop_padding m h hk
  | cons labels names ih =>
    obtain ⟨hne, hvalid⟩ := hnames labels List.mem_cons_self
    have hfold := foldl_extend hvalid
    have hbytes : ((labels :: names).map encodeName).flatten ++ List.replicate m 0 =
        labels.flatMap encodeLabel ++
          0 :: ((names.map encodeName).flatten ++ List.replicate m 0) := by
      simp [encodeName]
    rw [hbytes] at h
    obtain ⟨hfits, hlong⟩ := loop_labels labels hvalid h hk [] (by simp)
      (by rw [hfold]; exact joinDots_ne_nil hne hvalid)
    rw [hfold] at hfits hlong
    rw [List.map_cons, List.takeWhile_cons]
    by_cases hlen : (joinDots labels).length ≤ 255
    · obtain ⟨k', offset', hk', h', hprinted⟩ := hfits hlen
      rw [hprinted, ih (fun n hn => hnames n (List.mem_cons_of_mem _ hn)) h' hk']
      simp [hlen]
    · rw [hlong (Nat.not_le.mp hlen)]
      simp [hlen]

end Loop

/-! ### The round trip -/

/-- The bytes of an option with these suffixes, in front of the padding. -/
def optionBytes (suffixes : List Buf) : ℕ := 8 + (suffixes.map fun s => s.length + 2).sum

theorem length_encodeNames {suffixes : List Buf} {names : List (List Buf)}
    (h : List.Forall₂ IsName suffixes names) :
    8 + (names.map encodeName).flatten.length = optionBytes suffixes := by
  unfold optionBytes
  induction h with
  | nil => rfl
  | cons hname _ ih =>
    obtain ⟨hne, -, rfl⟩ := hname
    have hlen := length_joinDots hne
    simp only [List.map_cons, List.flatten_cons, List.length_append, List.sum_cons] at ih ⊢
    omega

/-- An option is emitted, as long as its length byte says, with less than eight
    bytes of padding, and the suffixes printed for it are the configured ones. -/
def RoundTrips (dnssl : AdvDNSSL) (cease_adv : Bool) : Prop :=
  ∃ o, dnsslOption dnssl cease_adv = some o ∧ (byteAt o 1).toNat * 8 = o.length ∧
    o.length < optionBytes dnssl.AdvDNSSLSuffixes + 8 ∧
    printedSuffixes (dumpDnssl o) = dnssl.AdvDNSSLSuffixes

theorem dnsslOption_named {dnssl : AdvDNSSL} {names : List (List Buf)} (h : Named dnssl names)
    (cease_adv : Bool) :
    (optionBytes dnssl.AdvDNSSLSuffixes ≤ 2040 →
      ∃ o, dnsslOption dnssl cease_adv = some o ∧ (byteAt o 1).toNat * 8 = o.length ∧
        o.length < optionBytes dnssl.AdvDNSSLSuffixes + 8 ∧
        ∃ m, o.drop 8 = (names.map encodeName).flatten ++ List.replicate m 0) ∧
      (2040 < optionBytes dnssl.AdvDNSSLSuffixes → dnsslOption dnssl cease_adv = none) := by
  have hlen := length_encodeNames h
  have hser := serializeDomainNames_named h
  unfold dnsslOption
  rw [hser]
  simp only [Option.bind_eq_bind, Option.bind_some, hlen]
  generalize optionBytes dnssl.AdvDNSSLSuffixes = bytes at hlen
  have htoNat : (UInt8.ofNat ((bytes + 7) / 8)).toNat = (bytes + 7) / 8 % 256 := by simp
  rw [htoNat]
  constructor
  · intro hle
    have hmod : (bytes + 7) / 8 % 256 = (bytes + 7) / 8 := Nat.mod_eq_of_lt (by omega)
    rw [hmod, if_neg (by omega), if_neg (by omega)]
    refine ⟨_, rfl, ?_, ?_, _, rfl⟩
    · change (UInt8.ofNat ((bytes + 7) / 8)).toNat * 8 = _
      rw [htoNat, hmod]
      simp only [List.length_append, List.length_cons, List.length_nil, length_htonl,
        List.length_replicate]
      omega
    · simp only [List.length_append, List.length_cons, List.length_nil, length_htonl,
        List.length_replicate]
      omega
  · intro hgt
    by_cases hlong : 256 * 8 < bytes
    · rw [if_pos hlong]
    · have hmod : (bytes + 7) / 8 % 256 = 0 := by omega
      rw [if_neg hlong, hmod, if_pos (by omega)]

theorem joinDots_named {suffixes : List Buf} {names : List (List Buf)}
    (h : List.Forall₂ IsName suffixes names) :
    names.map joinDots = suffixes ∧
      ∀ labels ∈ names, labels ≠ [] ∧ ∀ l ∈ labels, ValidLabel l := by
  induction h with
  | nil => simp
  | cons hname _ ih =>
    obtain ⟨hne, hvalid, hjoin⟩ := hname
    obtain ⟨hmap, hall⟩ := ih
    constructor
    · rw [List.map_cons, hmap, ← hjoin]
    · intro labels hmem
      rcases List.mem_cons.mp hmem with rfl | hmem
      · exact ⟨hne, hvalid⟩
      · exact hall labels hmem

/-- Names with labels of 1 to 63 bytes make the round trip exactly when their
    option has no more than 2040 bytes and each fits the buffer of `radvdump`. -/
theorem dnssl_roundTrips_iff (dnssl : AdvDNSSL) (names : List (List Buf))
    (h : Named dnssl names) (cease_adv : Bool) :
    RoundTrips dnssl cease_adv ↔
      optionBytes dnssl.AdvDNSSLSuffixes ≤ 2040 ∧
        ∀ s ∈ dnssl.AdvDNSSLSuffixes, s.length ≤ 255 := by
  obtain ⟨hfits, hlong⟩ := dnsslOption_named h cease_adv
  by_cases hle : optionBytes dnssl.AdvDNSSLSuffixes ≤ 2040
  · obtain ⟨o, ho, hbyte, hpad, m, hdrop⟩ := hfits hle
    obtain ⟨hsuffixes, hvalid⟩ := joinDots_named h
    have hahead : Ahead o (dnsslLimit o) 0 ((names.map encodeName).flatten ++ List.replicate m 0) := by
      constructor
      · exact hdrop
      · have hdlen := congrArg List.length hdrop
        rw [List.length_drop] at hdlen
        unfold dnsslLimit
        omega
    have hprinted : printedSuffixes (dumpDnssl o) =
        dnssl.AdvDNSSLSuffixes.takeWhile fun s => s.length ≤ 255 := by
      rw [← hsuffixes, ← loop_names names hvalid m hahead (Nat.le_add_left _ _)]
      unfold dumpDnssl
      change printedSuffixes (_ ++ _) = _
      rw [printedSuffixes_append]
      simp [printedSuffixes, suffixOf]
    constructor
    · rintro ⟨o', ho', -, -, hprinted'⟩
      obtain rfl := Option.some.inj (ho.symm.trans ho')
      refine ⟨hle, fun s hs => ?_⟩
      rw [hprinted] at hprinted'
      simpa using List.takeWhile_eq_self_iff.mp hprinted' s hs
    · rintro ⟨-, hall⟩
      refine ⟨o, ho, hbyte, hpad, ?_⟩
      rw [hprinted]
      exact List.takeWhile_eq_self_iff.mpr fun s hs => by simpa using hall s hs
  · constructor
    · rintro ⟨o, ho, -⟩
      rw [hlong (by omega)] at ho
      exact absurd ho (by simp)
    · intro hboth
      exact absurd hboth.1 hle

/-- `lan` and `example.lan`. -/
def twoSuffixes : AdvDNSSL where
  AdvDNSSLLifetime := 600
  FlushDNSSLFlag := true
  AdvDNSSLSuffixes := [[108, 97, 110], [101, 120, 97, 109, 112, 108, 101, 46, 108, 97, 110]]

theorem twoSuffixes_roundTrip : RoundTrips twoSuffixes false := by
  have hnamed : Named twoSuffixes
      [[[108, 97, 110]], [[101, 120, 97, 109, 112, 108, 101], [108, 97, 110]]] := by
    have hlan : ValidLabel [108, 97, 110] := ⟨by decide, by decide, by decide, by decide⟩
    have hexample : ValidLabel [101, 120, 97, 109, 112, 108, 101] :=
      ⟨by decide, by decide, by decide, by decide⟩
    refine .cons ⟨by decide, ?_, rfl⟩ (.cons ⟨by decide, ?_, rfl⟩ .nil)
    · simpa using hlan
    · simpa using ⟨hexample, hlan⟩
  exact (dnssl_roundTrips_iff twoSuffixes _ hnamed false).mpr ⟨by decide, by decide⟩

/-- Thirty-one names of 63 bytes and one of 16: an option of 2041 bytes. -/
def manySuffixes : AdvDNSSL where
  AdvDNSSLLifetime := 600
  FlushDNSSLFlag := true
  AdvDNSSLSuffixes := List.replicate 31 (List.replicate 63 97) ++ [List.replicate 16 97]

/-- Not too long for the test, the option has a length byte of zero. -/
theorem manySuffixes_lost : optionBytes manySuffixes.AdvDNSSLSuffixes = 2041 ∧
    Named manySuffixes
      (List.replicate 31 [List.replicate 63 97] ++ [[List.replicate 16 97]]) ∧
    ¬ RoundTrips manySuffixes false := by
  have hlabel : ∀ n, 1 ≤ n → n ≤ 63 → ValidLabel (List.replicate n 97) := by
    intro n hpos hle
    refine ⟨by simpa using hpos, by simpa using hle, ?_, ?_⟩
    · intro hmem
      exact absurd (List.eq_of_mem_replicate hmem) (by decide)
    · intro hmem
      exact absurd (List.eq_of_mem_replicate hmem) (by decide)
  have hname : ∀ n, 1 ≤ n → n ≤ 63 → IsName (List.replicate n 97) [List.replicate n 97] := by
    intro n hpos hle
    exact ⟨by simp, by simpa using hlabel n hpos hle, rfl⟩
  have hmany : ∀ k, List.Forall₂ IsName
      (List.replicate k (List.replicate 63 97) ++ [List.replicate 16 97])
      (List.replicate k [List.replicate 63 97] ++ [[List.replicate 16 97]]) := by
    intro k
    induction k with
    | zero => exact .cons (hname 16 (by decide) (by decide)) .nil
    | succ k ih => exact .cons (hname 63 (by decide) (by decide)) ih
  have hbytes : optionBytes manySuffixes.AdvDNSSLSuffixes = 2041 := by decide
  have hnamed : Named manySuffixes _ := hmany 31
  refine ⟨hbytes, hnamed, ?_⟩
  rintro ⟨o, ho, -⟩
  rw [(dnsslOption_named hnamed false).2 (by omega)] at ho
  exact absurd ho (by simp)

end WanStack.Radvd
