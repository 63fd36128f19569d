import WanStack.Radvd.Options

set_option autoImplicit false

/-!
# Packing the options into advertisements

The loop of `send_ra`, which copies as many options as fit behind the header
and sends the buffer, until the list is through.
-/
namespace WanStack.Radvd
open Aftr (Buf)

/-- The largest buffer `safe_buffer_resize` gives before it ends the program. -/
def safeBufferMax : ℕ := 64 * 1024

def safeBufferAppend (sb v : Buf) : Option Buf :=
  if safeBufferMax < sb.length + v.length then none else some (sb ++ v)

/-- The inner loop: options are copied while they fit. The test for an empty
    buffer looks at the one being filled. -/
def fill (limit : ℕ) : Buf → ℕ → List Buf → Option (Buf × List Buf)
  | sb, _, [] => some (sb, [])
  | sb, optionCount, cur :: rest =>
    if sb.length = 0 then fill limit sb optionCount rest
    else if limit < sb.length + cur.length && 0 < optionCount then some (sb, cur :: rest)
    else (safeBufferAppend sb cur).bind fun sb => fill limit sb (optionCount + 1) rest

/-- The outer loop, with a bound on its rounds. A failing `sendmsg` ends it. -/
def sendLoop (sendmsg : Buf → Bool) (limit : ℕ) (raHdr : Buf) :
    ℕ → List Buf → Option (List Buf × Bool)
  | 0, _ => none
  | k + 1, cur =>
    (fill limit raHdr 0 cur).bind fun filled =>
      if !sendmsg filled.1 then some ([], false)
      else if filled.2 = [] then some ([filled.1], true)
      else (sendLoop sendmsg limit raHdr k filled.2).map fun r => (filled.1 :: r.1, r.2)

/-- The advertisements sent, and whether all went out. -/
def sendRa (sys : Sys) (sendmsg : Buf → Bool) (iface : Interface) : Option (List Buf × Bool) :=
  if !iface.AdvSendAdvert then some ([], true)
  else
    (buildRaOptions sys iface).bind fun opts =>
      sendLoop sendmsg iface.max_ra_option_size.toNat
        (addRaHeader sys iface.ra_header_info iface.cease_adv) (opts.length + 1) opts

/-- The advertisements carry the options in order, whole, and within the limit
    unless one is alone; only without options the header goes alone. -/
structure Packed (raHdr : Buf) (options : List Buf) (limit : ℕ) (ras : List Buf)
    (groups : List (List Buf)) : Prop where
  header : ras = groups.map fun g => raHdr ++ g.flatten
  inOrder : groups.flatten = options
  fits : ∀ g ∈ groups, g.flatten.length ≤ limit ∨ ∃ o, g = [o]
  carries : options ≠ [] → ∀ g ∈ groups, g ≠ []

/-- A header that goes alone means that there is no option. -/
theorem Packed.options_nil {raHdr : Buf} {options : List Buf} {limit : ℕ} {ras : List Buf}
    {groups : List (List Buf)} (h : Packed raHdr options limit ras groups)
    (hempty : [] ∉ options) (halone : raHdr ∈ ras) : options = [] := by
  by_contra hne
  rw [h.header] at halone
  obtain ⟨g, hg, heq⟩ := List.mem_map.1 halone
  have hflat : g.flatten = [] := by
    have hlen := congrArg List.length heq
    rw [List.length_append] at hlen
    exact List.eq_nil_of_length_eq_zero (by omega)
  obtain ⟨o, ho⟩ := List.exists_mem_of_ne_nil g (h.carries hne g hg)
  have honil := List.flatten_eq_nil_iff.1 hflat o ho
  apply hempty
  rw [← h.inOrder, ← honil]
  exact List.mem_flatten.2 ⟨g, hg, ho⟩

/-- After an empty root the first option fits behind the header. -/
def RootFits (limit : ℕ) : List Buf → Prop
  | [] :: first :: _ => raHeaderLen + first.length ≤ limit
  | _ => True

section Loop
variable {limit : ℕ} {raHdr : Buf}

/-- Buffers stay below the largest size. -/
def Small (limit : ℕ) (raHdr : Buf) (used : ℕ) (opts : List Buf) : Prop :=
  (∀ o ∈ opts, raHdr.length + o.length ≤ safeBufferMax) ∧
    (limit ≤ safeBufferMax ∨ raHdr.length + used + opts.flatten.length ≤ safeBufferMax)

theorem fill_spec (hhdr : 0 < raHdr.length) (l acc : List Buf) (count : ℕ)
    (hcount : 0 < count ↔ acc ≠ []) (hacc : acc.flatten.length ≤ limit ∨ ∃ o, acc = [o])
    (hsmall : Small limit raHdr acc.flatten.length l) :
    ∃ g rest, fill limit (raHdr ++ acc.flatten) count l =
        some (raHdr ++ (acc ++ g).flatten, rest) ∧
      l = g ++ rest ∧ ((acc ++ g).flatten.length ≤ limit ∨ ∃ o, acc ++ g = [o]) ∧
      (acc = [] → l ≠ [] → g ≠ []) := by
  induction l generalizing acc count with
  | nil =>
    refine ⟨[], [], ?_, rfl, ?_, fun _ h => absurd rfl h⟩
    · rw [fill, List.append_nil]
    · rw [List.append_nil]
      exact hacc
  | cons cur rest ih =>
    obtain ⟨hone, hall⟩ := hsmall
    have hcur := hone cur List.mem_cons_self
    rw [List.flatten_cons, List.length_append] at hall
    have hlen : (raHdr ++ acc.flatten).length = raHdr.length + acc.flatten.length :=
      List.length_append
    unfold fill
    rw [if_neg (by omega)]
    split_ifs with hfull
    · rw [Bool.and_eq_true, decide_eq_true_iff, decide_eq_true_iff] at hfull
      refine ⟨[], cur :: rest, ?_, rfl, ?_, fun h => absurd h (hcount.1 hfull.2)⟩
      · rw [List.append_nil]
      · rw [List.append_nil]
        exact hacc
    · rw [Bool.and_eq_true, decide_eq_true_iff, decide_eq_true_iff, not_and_or] at hfull
      have hnil : ¬ 0 < count → acc.flatten.length = 0 := by
        intro hzero
        rw [not_not.1 (mt hcount.2 hzero)]
        rfl
      have hroom : (raHdr ++ acc.flatten).length + cur.length ≤ safeBufferMax := by
        rcases hfull with hfull | hfull
        · omega
        · have hz := hnil hfull
          omega
      have happ : safeBufferAppend (raHdr ++ acc.flatten) cur =
          some (raHdr ++ (acc ++ [cur]).flatten) := by
        unfold safeBufferAppend
        rw [if_neg (by omega)]
        simp
      rw [happ, Option.bind_some]
      have hflat : (acc ++ [cur]).flatten.length = acc.flatten.length + cur.length := by
        simp
      obtain ⟨g, rest', hfill, hsplit, hsize, -⟩ := ih (acc ++ [cur]) (count + 1)
        (by simp) (by
          rcases hfull with hfull | hfull
          · left
            omega
          · right
            exact ⟨cur, by rw [not_not.1 (mt hcount.2 hfull)]; rfl⟩)
        ⟨fun o ho => hone o (List.mem_cons_of_mem _ ho), by omega⟩
      refine ⟨cur :: g, rest', ?_, ?_, ?_, fun _ _ => List.cons_ne_nil _ _⟩
      · rw [hfill, List.append_assoc]
        rfl
      · rw [hsplit]
        rfl
      · rw [List.append_assoc] at hsize
        exact hsize

theorem Small.tail {g rest : List Buf} {used : ℕ}
    (h : Small limit raHdr used (g ++ rest)) : Small limit raHdr 0 rest := by
  refine ⟨fun o ho => h.1 o (List.mem_append_right _ ho), ?_⟩
  have hall := h.2
  rw [List.flatten_append, List.length_append] at hall
  omega

variable {sendmsg : Buf → Bool} (hsend : ∀ ra, sendmsg ra = true)
include hsend

/-- The rounds after a buffer is filled: the rest is packed the same way. -/
theorem sendLoop_spec (hhdr : 0 < raHdr.length) (k : ℕ) (l : List Buf) (hk : l.length < k)
    (hsmall : Small limit raHdr 0 l) :
    ∃ groups : List (List Buf), sendLoop sendmsg limit raHdr k l =
        some (groups.map fun g => raHdr ++ g.flatten, true) ∧
      groups.flatten = l ∧ (∀ g ∈ groups, g.flatten.length ≤ limit ∨ ∃ o, g = [o]) ∧
      (l ≠ [] → ∀ g ∈ groups, g ≠ []) := by
  induction k generalizing l with
  | zero => omega
  | succ k ih =>
    obtain ⟨g, rest, hfill, hsplit, hsize, hcarries⟩ :=
      fill_spec hhdr l [] 0 (by simp) (Or.inl (Nat.zero_le _)) hsmall
    rw [List.flatten_nil, List.append_nil, List.nil_append] at hfill
    rw [List.nil_append] at hsize
    unfold sendLoop
    rw [hfill, Option.bind_some]
    dsimp only
    rw [hsend, Bool.not_true, if_neg (by decide)]
    split_ifs with hrest
    · refine ⟨[g], rfl, ?_, ?_, ?_⟩
      · rw [hsplit, hrest]
        simp
      · intro x hx
        rw [List.mem_singleton.1 hx]
        exact hsize
      · intro hl x hx
        rw [List.mem_singleton.1 hx]
        exact hcarries rfl hl
    · have hl : l ≠ [] := by
        rw [hsplit]
        exact List.append_ne_nil_of_right_ne_nil _ hrest
      have hg := List.length_pos_of_ne_nil (hcarries rfl hl)
      rw [hsplit] at hk hsmall
      rw [List.length_append] at hk
      obtain ⟨groups, hloop, hflat, hfits, hne⟩ := ih rest (by omega) hsmall.tail
      refine ⟨g :: groups, ?_, ?_, ?_, ?_⟩
      · rw [hloop]
        rfl
      · rw [List.flatten_cons, hflat, hsplit]
      · intro x hx
        rcases List.mem_cons.1 hx with rfl | hx
        · exact hsize
        · exact hfits x hx
      · intro _ x hx
        rcases List.mem_cons.1 hx with rfl | hx
        · exact hcarries rfl hl
        · exact hne hrest x hx

/-- Options without an empty root are packed. -/
theorem sendLoop_options (hhdr : 0 < raHdr.length) {opts : List Buf}
    (hpos : ∀ o ∈ opts, 0 < o.length) (hsmall : Small limit raHdr 0 opts) (k : ℕ)
    (hk : opts.length ≤ k) :
    ∃ ras, sendLoop sendmsg limit raHdr (k + 1) opts = some (ras, true) ∧
      ∃ groups, Packed raHdr (opts.filter (· ≠ [])) limit ras groups := by
  have hfilter : opts.filter (· ≠ []) = opts := by
    apply List.filter_eq_self.2
    intro o ho
    have hne : o ≠ [] := List.ne_nil_of_length_pos (hpos o ho)
    simpa using hne
  obtain ⟨groups, hloop, hflat, hfits, hne⟩ :=
    sendLoop_spec hsend hhdr (k + 1) opts (by omega) hsmall
  rw [hfilter]
  exact ⟨_, hloop, groups, rfl, hflat, hfits, hne⟩

omit hsend in
theorem fill_count (sb : Buf) (m n : ℕ) (l : List Buf) :
    fill limit sb (m + 1) l = fill limit sb (n + 1) l := by
  induction l generalizing sb m n with
  | nil => rfl
  | cons cur rest ih =>
    unfold fill
    simp only [Nat.zero_lt_succ, decide_true]
    split_ifs
    · exact ih sb m n
    · rfl
    · apply congrArg
      funext sb
      exact ih sb (m + 1) (n + 1)

omit hsend in
/-- The empty root counts as an option. -/
theorem fill_root (hhdr : 0 < raHdr.length) (hmax : raHdr.length ≤ safeBufferMax)
    (l : List Buf) : fill limit raHdr 0 ([] :: l) = fill limit raHdr 1 l := by
  have happ : safeBufferAppend raHdr [] = some raHdr := by
    unfold safeBufferAppend
    rw [List.append_nil, if_neg (by simpa using hmax)]
  rw [fill, if_neg (by omega), if_neg (by simp), happ, Option.bind_some]

omit hsend in
theorem fill_first (hhdr : 0 < raHdr.length) {first : Buf} (rest : List Buf)
    (hfits : raHdr.length + first.length ≤ limit) :
    fill limit raHdr 1 (first :: rest) = fill limit raHdr 0 (first :: rest) := by
  have hroom : ¬ limit < raHdr.length + first.length := by omega
  have hone : fill limit raHdr 1 (first :: rest) =
      (safeBufferAppend raHdr first).bind fun sb => fill limit sb 2 rest := by
    rw [fill, if_neg (by omega), if_neg (by simp [hroom])]
  have hzero : fill limit raHdr 0 (first :: rest) =
      (safeBufferAppend raHdr first).bind fun sb => fill limit sb 1 rest := by
    rw [fill, if_neg (by omega), if_neg (by simp)]
  rw [hone, hzero]
  apply congrArg
  funext sb
  exact fill_count sb 1 0 rest

/-- After an empty root: the options are packed just when the first one fits. -/
theorem sendLoop_root (hhdr : raHdr.length = raHeaderLen) {l : List Buf}
    (hpos : ∀ o ∈ l, 0 < o.length) (hsmall : Small limit raHdr 0 ([] :: l)) (k : ℕ)
    (hk : l.length ≤ k) :
    (∃ ras, sendLoop sendmsg limit raHdr (k + 1) ([] :: l) = some (ras, true) ∧
      ∃ groups, Packed raHdr (l.filter (· ≠ [])) limit ras groups) ↔
      RootFits limit ([] :: l) := by
  have hmax : raHdr.length ≤ safeBufferMax := hsmall.1 [] List.mem_cons_self
  have hhdr' : 0 < raHdr.length := by
    rw [hhdr]
    decide
  cases l with
  | nil =>
    constructor
    · intro _
      trivial
    · intro _
      refine ⟨[raHdr], ?_, [[]], by simp, rfl, by simp, fun h => absurd rfl h⟩
      rw [sendLoop, fill_root hhdr' hmax, fill, Option.bind_some, hsend]
      rfl
  | cons first rest =>
    have hfirst := hpos first List.mem_cons_self
    unfold RootFits
    rw [← hhdr]
    constructor
    · rintro ⟨ras, hras, groups, hpacked⟩
      by_contra hlarge
      -- the first advertisement is the header alone
      rw [sendLoop, fill_root hhdr' hmax, fill, if_neg (by omega),
        if_pos (by simpa using hlarge), Option.bind_some] at hras
      dsimp only at hras
      rw [hsend, Bool.not_true, if_neg (by decide), if_neg (List.cons_ne_nil _ _)] at hras
      obtain ⟨r, -, hr⟩ := Option.map_eq_some_iff.1 hras
      have hmem : first ∈ (first :: rest).filter (· ≠ []) := by
        apply List.mem_filter.2
        refine ⟨List.mem_cons_self, ?_⟩
        simpa using List.ne_nil_of_length_pos hfirst
      have hnil := hpacked.options_nil (fun h => by simp at h)
        (by rw [← (Prod.mk.inj hr).1]; exact List.mem_cons_self)
      rw [hnil] at hmem
      exact absurd hmem List.not_mem_nil
    · intro hfits
      have heq : sendLoop sendmsg limit raHdr (k + 1) ([] :: first :: rest) =
          sendLoop sendmsg limit raHdr (k + 1) (first :: rest) := by
        rw [sendLoop, sendLoop, fill_root hhdr' hmax, fill_first hhdr' rest hfits]
      have hsmall' : Small limit raHdr 0 (first :: rest) := hsmall.tail (g := [[]])
      rw [heq]
      exact sendLoop_options hsend hhdr' hpos hsmall' k (by omega)

end Loop

theorem raHeaderLen_eq : raHeaderLen = 16 := rfl

/-- A limit of 40 is enough, since single options have at most 24 bytes. -/
theorem rootFits_of_le {sys : Sys} {iface : Interface} {opts : List Buf}
    (hopts : buildRaOptions sys iface = some opts) {limit : ℕ} (hlimit : 40 ≤ limit) :
    RootFits limit opts := by
  rcases buildRaOptions_built hopts with rfl | ⟨hne, hall⟩
  · cases hs : singleOptions iface with
    | nil => trivial
    | cons first rest =>
      have hmem : first ∈ singleOptions iface := by
        rw [hs]
        exact List.mem_cons_self
      have hlen := singleOptions_length iface first hmem
      unfold RootFits
      rw [raHeaderLen_eq]
      omega
  · cases opts with
    | nil => trivial
    | cons o rest =>
      cases o with
      | nil => exact absurd (hall [] List.mem_cons_self).1 (by simp)
      | cons b o => trivial

/-- An interface that advertises its link MTU and nothing else. -/
def mtuOnly (limit : UInt32) : Interface := { bareInterface limit with AdvLinkMTU := 1500 }

def quietSys : Sys :=
  { check_ip6_forwarding := false, get_v4addr := fun _ => none, get_prefixes := fun _ => [] }

end WanStack.Radvd
