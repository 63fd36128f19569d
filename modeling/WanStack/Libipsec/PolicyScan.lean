import Mathlib.Data.List.TakeWhile
import WanStack.Libipsec.PolicyText

set_option autoImplicit false

/-!
# What the scanner makes of a printed policy

The words, numbers, addresses and marks that `ipsec_dump_policy` prints, each in
front of whatever follows it.
-/
namespace WanStack.Libipsec
open Scanner

/-- What follows the letters of a word. -/
def Stops (rest : Text) : Prop := ∀ c ∈ rest.head?, hostChar c = false

/-- What follows a word and ends it. -/
def Ends (rest : Text) : Prop := Stops rest ∧ ∀ c ∈ rest.head?, c ≠ '%'

theorem stops_cons {c : Char} (rest : Text) (hc : hostChar c = false) : Stops (c :: rest) := by
  intro d hd
  obtain rfl := Option.some.inj hd
  exact hc

theorem ends_nil : Ends [] := by
  constructor <;> intro c hc <;> cases hc

theorem ends_cons {c : Char} (rest : Text) (hc : hostChar c = false) (hne : c ≠ '%') : Ends (c :: rest) := by
  refine ⟨stops_cons rest hc, ?_⟩
  intro d hd
  obtain rfl := Option.some.inj hd
  exact hne

section Word
variable {w rest : Text}

theorem Stops.head (h : Stops rest) {c : Char} (hc : c ∈ rest.head?) {p : Char → Bool}
    (hp : ∀ c, p c → hostChar c) : p c = false := by
  have hno := h c hc
  cases hpc : p c with
  | false => rfl
  | true => exact absurd (hp c hpc) (by simp [hno])

theorem takeWhile_append_of_head {p : Char → Bool} (hrest : ∀ c ∈ rest.head?, p c = false) :
    (w ++ rest).takeWhile p = w.takeWhile p := by
  induction w with
  | nil =>
    cases rest with
    | nil => rfl
    | cons c cs => rw [List.nil_append, List.takeWhile_cons_of_neg (by simp [hrest c rfl])]; rfl
  | cons c w ih =>
    rw [List.cons_append, List.takeWhile_cons, List.takeWhile_cons, ih]

theorem runLen_append {p : Char → Bool} (hrest : ∀ c ∈ rest.head?, p c = false) :
    runLen p (w ++ rest) = runLen p w := by
  unfold runLen
  rw [takeWhile_append_of_head hrest]

theorem isPrefixOf_append {s : Text} (hs : ∀ c ∈ s, hostChar c) (hrest : Stops rest) :
    s.isPrefixOf (w ++ rest) = s.isPrefixOf w := by
  induction s generalizing w with
  | nil => simp
  | cons c s ih =>
    cases w with
    | nil =>
      cases rest with
      | nil => rfl
      | cons d rest =>
        have hne : c ≠ d := by
          rintro rfl
          exact absurd (hs c List.mem_cons_self) (by simp [hrest c rfl])
        simp [List.isPrefixOf, hne]
    | cons d w =>
      rw [List.cons_append, List.isPrefixOf_cons_cons, List.isPrefixOf_cons_cons,
        ih fun x hx => hs x (List.mem_cons_of_mem _ hx)]

theorem litLen_append {s : Text} (hs : ∀ c ∈ s, hostChar c) (hrest : Stops rest) :
    litLen s (w ++ rest) = litLen s w := by
  unfold litLen
  rw [isPrefixOf_append hs hrest]

/-- A mark does not start a word. -/
theorem litLen_mark {a c : Char} {s cs : Text} (hne : a ≠ c) : litLen (a :: s) (c :: cs) = none := by
  unfold litLen
  rw [List.isPrefixOf_cons_cons]
  simp [hne]

theorem litThen_mark {a c : Char} {s cs : Text} (len : Text → Option ℕ) (hne : a ≠ c) :
    litThen (a :: s) len (c :: cs) = none := by
  unfold litThen
  rw [List.isPrefixOf_cons_cons]
  simp [hne]

theorem runLen_head {p : Char → Bool} {c : Char} (cs : Text) (hc : p c = false) :
    runLen p (c :: cs) = none := by
  unfold runLen
  rw [List.takeWhile_cons_of_neg (by simp [hc])]
  rfl

theorem runLen_all {p : Char → Bool} (hw : w ≠ []) (hall : ∀ c ∈ w, p c)
    (hrest : ∀ c ∈ rest.head?, p c = false) : runLen p (w ++ rest) = some w.length := by
  have htake : (w ++ rest).takeWhile p = w := by
    rw [takeWhile_append_of_head hrest, List.takeWhile_eq_self_iff.mpr hall]
  unfold runLen
  rw [htake]
  cases w with
  | nil => exact absurd rfl hw
  | cons c cs => rfl

theorem litThen_append {s : Text} {len : Text → Option ℕ} (hs : ∀ c ∈ s, hostChar c) (hrest : Stops rest)
    (hlen : ∀ v, len (v ++ rest) = len v) : litThen s len (w ++ rest) = litThen s len w := by
  unfold litThen
  rw [isPrefixOf_append hs hrest]
  cases hpre : s.isPrefixOf w with
  | false => rfl
  | true =>
    obtain ⟨v, rfl⟩ := List.isPrefixOf_iff_prefix.mp hpre
    rw [if_pos rfl, if_pos rfl, List.append_assoc, List.drop_left, List.drop_left, hlen]

theorem digit_host (c : Char) (h : c.isDigit) : hostChar c := by
  simp [hostChar, Char.isAlphanum, h]

theorem ipaddressLen_word (hne : w ≠ []) (hw : ∀ c ∈ w, hostChar c) (hrest : Ends rest) :
    ipaddressLen (w ++ rest) = some w.length := by
  unfold ipaddressLen
  rw [runLen_all hne hw hrest.1, Option.map_some, List.drop_left]
  cases rest with
  | nil => rfl
  | cons c cs => rw [litThen_mark _ (hrest.2 c rfl).symm]

/-- No rule looks behind the end of a word. -/
theorem rules_word (hne : w ≠ []) (hw : ∀ c ∈ w, hostChar c) (hrest : Ends rest) :
    ∀ r ∈ policyRules, r.len (w ++ rest) = r.len w := by
  obtain ⟨c, cs, rfl⟩ := List.exists_cons_of_ne_nil hne
  have hc := hw c List.mem_cons_self
  have hmark : ∀ a, hostChar a = false → a ≠ c := by
    rintro a ha rfl
    exact absurd hc (by simp [ha])
  have hlit : ∀ (s : Text) (t : Token), s.all hostChar = true →
      (word s t).len (c :: cs ++ rest) = (word s t).len (c :: cs) :=
    fun s t hs => litLen_append (List.all_eq_true.mp hs) hrest.1
  have hsingle : ∀ (a : Char) (t : Token), hostChar a = false →
      (word [a] t).len (c :: cs ++ rest) = (word [a] t).len (c :: cs) := by
    intro a t ha
    change litLen [a] (c :: (cs ++ rest)) = litLen [a] (c :: cs)
    rw [litLen_mark (hmark a ha), litLen_mark (hmark a ha)]
  have hdigits : ∀ v, runLen Char.isDigit (v ++ rest) = runLen Char.isDigit v :=
    fun v => runLen_append fun d hd => hrest.1.head hd digit_host
  have hblank : isBlank c = false := by
    have hspace := hmark ' ' (by decide)
    have htab := hmark '\t' (by decide)
    simp [isBlank, hspace.symm, htab.symm]
  have hip : ipaddressLen (c :: cs ++ rest) = ipaddressLen (c :: cs) := by
    rw [ipaddressLen_word hne hw hrest]
    have hself := ipaddressLen_word hne hw ends_nil
    rw [List.append_nil] at hself
    exact hself.symm
  simp only [policyRules, List.forall_mem_cons, List.not_mem_nil, false_imp_iff, implies_true, and_true]
  refine ⟨hlit _ _ rfl, hlit _ _ rfl, hlit _ _ rfl, hlit _ _ rfl, hlit _ _ rfl, hlit _ _ rfl, hlit _ _ rfl,
    hlit _ _ rfl, hsingle '+' _ rfl, hdigits _, hlit _ _ rfl, hlit _ _ rfl, hlit _ _ rfl, hlit _ _ rfl,
    hlit _ _ rfl, hlit _ _ rfl, hlit _ _ rfl, hlit _ _ rfl, hlit _ _ rfl, hlit _ _ rfl, hlit _ _ rfl,
    hlit _ _ rfl, hlit _ _ rfl, hlit _ _ rfl, hlit _ _ rfl,
    litThen_append (List.all_eq_true.mp rfl) hrest.1 hdigits, hlit _ _ rfl, hsingle '/' _ rfl, hip,
    hsingle '-' _ rfl, ?_, ?_, ?_⟩
  · change portLen (c :: (cs ++ rest)) = portLen (c :: cs)
    unfold portLen
    rw [litThen_mark _ (hmark '[' (by decide)), litThen_mark _ (hmark '[' (by decide))]
  · change runLen isBlank (c :: (cs ++ rest)) = runLen isBlank (c :: cs)
    rw [runLen_head _ hblank, runLen_head _ hblank]
  · change litLen ['\n'] (c :: (cs ++ rest)) = litLen ['\n'] (c :: cs)
    rw [litLen_mark (hmark '\n' (by decide)), litLen_mark (hmark '\n' (by decide))]

end Word

/-! ### Words and numbers -/

section Words
variable {rest : Text} (hrest : Ends rest)
include hrest

theorem longest_word {w : Text} (hne : w ≠ []) (hw : ∀ c ∈ w, hostChar c) :
    longest (w ++ rest) policyRules = longest w policyRules :=
  longest_congr (rules_word hne hw hrest)

/-- A word that one of the rules takes whole. -/
theorem yylex_word {w : Text} (hne : w ≠ []) (hw : ∀ c ∈ w, hostChar c) {r : Rule Char Token}
    (h : longest w policyRules = some (w.length, r)) :
    yylex (w ++ rest) = (r.token w).toList ++ yylex rest :=
  lex_match policyRules hne ((longest_word hrest hne hw).trans h)

theorem yylex_dir (d : Dir) (hd : d = .INBOUND ∨ d = .OUTBOUND ∨ d = .FWD) :
    yylex (dirStr d ++ rest) = .DIR d :: yylex rest := by
  rcases hd with rfl | rfl | rfl
  · exact yylex_word hrest (by decide) (List.all_eq_true.mp rfl) (r := word "in".toList (.DIR .INBOUND)) rfl
  · exact yylex_word hrest (by decide) (List.all_eq_true.mp rfl) (r := word "out".toList (.DIR .OUTBOUND)) rfl
  · exact yylex_word hrest (by decide) (List.all_eq_true.mp rfl) (r := word "fwd".toList (.DIR .FWD)) rfl

theorem yylex_policy (t : PolicyType) : yylex (policyStr t ++ rest) = .ACTION t :: yylex rest := by
  cases t with
  | DISCARD => exact yylex_word hrest (by decide) (List.all_eq_true.mp rfl) (r := word "discard".toList (.ACTION .DISCARD)) rfl
  | NONE => exact yylex_word hrest (by decide) (List.all_eq_true.mp rfl) (r := word "none".toList (.ACTION .NONE)) rfl
  | IPSEC => exact yylex_word hrest (by decide) (List.all_eq_true.mp rfl) (r := word "ipsec".toList (.ACTION .IPSEC)) rfl
  | ENTRUST => exact yylex_word hrest (by decide) (List.all_eq_true.mp rfl) (r := word "entrust".toList (.ACTION .ENTRUST)) rfl
  | BYPASS => exact yylex_word hrest (by decide) (List.all_eq_true.mp rfl) (r := word "bypass".toList (.ACTION .BYPASS)) rfl

theorem yylex_prio : yylex ("prio".toList ++ rest) = .PRIORITY :: yylex rest :=
  yylex_word hrest (by decide) (List.all_eq_true.mp rfl) (r := word "prio".toList .PRIORITY) rfl

theorem yylex_high : yylex ("high".toList ++ rest) = .PRIO_BASE PRIORITY_HIGH :: yylex rest :=
  yylex_word hrest (by decide) (List.all_eq_true.mp rfl) (r := word "high".toList (.PRIO_BASE PRIORITY_HIGH)) rfl

theorem yylex_def : yylex ("def".toList ++ rest) = .PRIO_BASE PRIORITY_DEFAULT :: yylex rest :=
  yylex_word hrest (by decide) (List.all_eq_true.mp rfl) (r := word "def".toList (.PRIO_BASE PRIORITY_DEFAULT)) rfl

theorem yylex_low : yylex ("low".toList ++ rest) = .PRIO_BASE PRIORITY_LOW :: yylex rest :=
  yylex_word hrest (by decide) (List.all_eq_true.mp rfl) (r := word "low".toList (.PRIO_BASE PRIORITY_LOW)) rfl

theorem yylex_proto {p : Proto} {s : Text} (hp : protoStr p = some s) :
    yylex (s ++ rest) = .PROTOCOL p :: yylex rest := by
  cases p with
  | IP => cases hp
  | ESP =>
    obtain rfl := Option.some.inj hp
    exact yylex_word hrest (by decide) (List.all_eq_true.mp rfl) (r := word "esp".toList (.PROTOCOL .ESP)) rfl
  | AH =>
    obtain rfl := Option.some.inj hp
    exact yylex_word hrest (by decide) (List.all_eq_true.mp rfl) (r := word "ah".toList (.PROTOCOL .AH)) rfl
  | IPCOMP =>
    obtain rfl := Option.some.inj hp
    exact yylex_word hrest (by decide) (List.all_eq_true.mp rfl) (r := word "ipcomp".toList (.PROTOCOL .IPCOMP)) rfl

theorem yylex_mode (m : Mode) (hm : m = .TRANSPORT ∨ m = .TUNNEL) :
    yylex (modeStr m ++ rest) = .MODE m :: yylex rest := by
  rcases hm with rfl | rfl
  · exact yylex_word hrest (by decide) (List.all_eq_true.mp rfl) (r := word "transport".toList (.MODE .TRANSPORT)) rfl
  · exact yylex_word hrest (by decide) (List.all_eq_true.mp rfl) (r := word "tunnel".toList (.MODE .TUNNEL)) rfl

theorem yylex_level (l : Level) : yylex (levelStr l ++ rest) = .LEVEL l :: yylex rest := by
  cases l with
  | DEFAULT => exact yylex_word hrest (by decide) (List.all_eq_true.mp rfl) (r := word "default".toList (.LEVEL .DEFAULT)) rfl
  | USE => exact yylex_word hrest (by decide) (List.all_eq_true.mp rfl) (r := word "use".toList (.LEVEL .USE)) rfl
  | REQUIRE => exact yylex_word hrest (by decide) (List.all_eq_true.mp rfl) (r := word "require".toList (.LEVEL .REQUIRE)) rfl
  | UNIQUE => exact yylex_word hrest (by decide) (List.all_eq_true.mp rfl) (r := word "unique".toList (.LEVEL .UNIQUE)) rfl

end Words

theorem litLen_le {s input : Text} {n : ℕ} (h : litLen s input = some n) : n ≤ input.length := by
  unfold litLen at h
  split at h
  · next hpre =>
    obtain rfl := Option.some.inj h
    exact (List.isPrefixOf_iff_prefix.mp hpre).length_le
  · cases h

theorem runLen_le {p : Char → Bool} {input : Text} {n : ℕ} (h : runLen p input = some n) :
    n ≤ input.length := by
  unfold runLen at h
  split at h
  · cases h
  · next k hk =>
    obtain rfl := Option.some.inj h
    have hle := (List.takeWhile_prefix (l := input) p).length_le
    omega

theorem litThen_le {s input : Text} {len : Text → Option ℕ}
    (hlen : ∀ v n, len v = some n → n ≤ v.length) {n : ℕ} (h : litThen s len input = some n) :
    n ≤ input.length := by
  unfold litThen at h
  split at h
  · next hpre =>
    obtain ⟨k, hk, rfl⟩ := Option.map_eq_some_iff.mp h
    have hle := hlen _ k hk
    have hs := (List.isPrefixOf_iff_prefix.mp hpre).length_le
    rw [List.length_drop] at hle
    omega
  · cases h

theorem ipaddressLen_le {input : Text} {n : ℕ} (h : ipaddressLen input = some n) : n ≤ input.length := by
  unfold ipaddressLen at h
  obtain ⟨k, hk, rfl⟩ := Option.map_eq_some_iff.mp h
  have hle := runLen_le hk
  split
  · exact hle
  · next m hm =>
    have hmore := litThen_le (fun v n => runLen_le) hm
    rw [List.length_drop] at hmore
    omega

theorem portLen_le {input : Text} {n : ℕ} (h : portLen input = some n) : n ≤ input.length := by
  unfold portLen at h
  split at h
  · cases h
  · next k hk =>
    split at h
    · next hclose =>
      obtain rfl := Option.some.inj h
      have hlt : k < input.length := by
        by_contra hge
        rw [List.drop_eq_nil_of_le (Nat.not_lt.mp hge)] at hclose
        cases hclose
      exact hlt
    · cases h

/-- No rule matches more than there is. -/
theorem rules_le {input : Text} : ∀ r ∈ policyRules, ∀ n, r.len input = some n → n ≤ input.length := by
  have hword : ∀ (s : Text) (t : Token), ∀ n, (word s t).len input = some n → n ≤ input.length :=
    fun s t n => litLen_le
  have hdigits : ∀ n, decstring.len input = some n → n ≤ input.length := fun n => runLen_le
  have hunique : ∀ n, uniqueDecstring.len input = some n → n ≤ input.length :=
    fun n => litThen_le fun v n => runLen_le
  simp only [policyRules, List.forall_mem_cons, List.not_mem_nil, false_imp_iff, implies_true, and_true]
  exact ⟨hword _ _, hword _ _, hword _ _, hword _ _, hword _ _, hword _ _, hword _ _, hword _ _,
    hword _ _, hdigits, hword _ _, hword _ _, hword _ _, hword _ _, hword _ _, hword _ _, hword _ _,
    hword _ _, hword _ _, hword _ _, hword _ _, hword _ _, hword _ _, hword _ _, hword _ _, hunique,
    hword _ _, hword _ _, fun n => ipaddressLen_le, hword _ _, fun n => portLen_le,
    fun n => runLen_le, fun n => litLen_le⟩

/-! ### Numbers -/

theorem decimal_ne_nil (n : ℕ) : decimal n ≠ [] := Nat.toDigits_ne_nil

theorem decimal_digit (n : ℕ) : ∀ c ∈ decimal n, c.isDigit := fun _ hc =>
  Nat.isDigit_of_mem_toDigits (by decide) (by decide) hc

theorem decimal_host (n : ℕ) : ∀ c ∈ decimal n, hostChar c :=
  fun c hc => digit_host c (decimal_digit n c hc)

theorem atol_decimal (n : ℕ) (hn : n ≤ LONG_MAX) : atol (decimal n) = n := by
  unfold atol decimal
  rw [Nat.ofDigitChars_ten_toDigits]
  exact Nat.min_eq_left hn

theorem runLen_full {p : Char → Bool} {w : Text} (h : runLen p w = some w.length) : ∀ c ∈ w, p c := by
  have htake : (w.takeWhile p).length = w.length := by
    unfold runLen at h
    split at h
    · cases h
    · next k hk => exact hk.trans (Option.some.inj h)
  have heq := (List.takeWhile_prefix p).eq_of_length htake
  intro c hc
  rw [← heq] at hc
  exact List.mem_takeWhile_imp hc

theorem runLen_self {p : Char → Bool} {w : Text} (hne : w ≠ []) (hw : ∀ c ∈ w, p c) :
    runLen p w = some w.length := by
  have hall := runLen_all hne hw (show ∀ c ∈ ([] : Text).head?, p c = false by simp)
  rwa [List.append_nil] at hall

/-- A word that starts with another character. -/
theorem word_not_lt {a c : Char} {s cs : Text} {t : Token} {k n : ℕ} (hne : a ≠ c)
    (hk : (word (a :: s) t).len (c :: cs) = some n) : n < k :=
  absurd ((litLen_mark hne).symm.trans hk) (by simp)

theorem longest_decimal {w : Text} (hne : w ≠ []) (hw : ∀ c ∈ w, c.isDigit) :
    longest w policyRules = some (w.length, decstring) := by
  have hsplit : policyRules = policyRules.take 9 ++ decstring :: policyRules.drop 10 := rfl
  rw [hsplit]
  apply longest_first
  · obtain ⟨c, cs, rfl⟩ := List.exists_cons_of_ne_nil hne
    have hc : c.isDigit := hw c List.mem_cons_self
    have hno : ∀ (a : Char) (s : Text) (t : Token), a.isDigit = false →
        ∀ n, (word (a :: s) t).len (c :: cs) = some n → n < (c :: cs).length := by
      intro a s t ha n
      apply word_not_lt
      rintro rfl
      exact absurd hc (by simp [ha])
    simp only [policyRules, List.take, List.forall_mem_cons, List.not_mem_nil, false_imp_iff,
      implies_true, and_true]
    exact ⟨hno 'i' _ _ rfl, hno 'o' _ _ rfl, hno 'f' _ _ rfl, hno 'p' _ _ rfl, hno 'p' _ _ rfl,
      hno 'l' _ _ rfl, hno 'd' _ _ rfl, hno 'h' _ _ rfl, hno '+' _ _ rfl⟩
  · exact runLen_self hne hw
  · intro r hr
    exact rules_le r (List.mem_of_mem_drop hr)

theorem yylex_decimal {rest : Text} (hrest : Ends rest) (n : ℕ) :
    yylex (decimal n ++ rest) = .PRIO_OFFSET (decimal n) :: yylex rest :=
  yylex_word hrest (decimal_ne_nil n) (decimal_host n)
    (longest_decimal (decimal_ne_nil n) (decimal_digit n))

theorem longest_unique {w : Text} (hne : w ≠ []) (hw : ∀ c ∈ w, c.isDigit) :
    longest ("unique:".toList ++ w) policyRules = some (("unique:".toList ++ w).length, uniqueDecstring) := by
  have hsplit : policyRules = policyRules.take 25 ++ uniqueDecstring :: policyRules.drop 26 := rfl
  rw [hsplit]
  apply longest_first
  · have hno : ∀ (a : Char) (s : Text) (t : Token), a ≠ 'u' →
        ∀ n, (word (a :: s) t).len ('u' :: ("nique:".toList ++ w)) = some n →
          n < ("unique:".toList ++ w).length :=
      fun a s t ha n => word_not_lt ha
    have huse : ∀ n, (word "use".toList (.LEVEL .USE)).len ('u' :: ("nique:".toList ++ w)) = some n →
        n < ("unique:".toList ++ w).length := by
      intro n hn
      exact absurd hn (by simp [word, litLen, List.isPrefixOf])
    have hdigits : ∀ n, decstring.len ('u' :: ("nique:".toList ++ w)) = some n →
        n < ("unique:".toList ++ w).length := by
      intro n hn
      have hnone : runLen Char.isDigit ('u' :: ("nique:".toList ++ w)) = none := runLen_head _ (by decide)
      exact absurd (hnone.symm.trans hn) (by simp)
    simp only [policyRules, List.take, List.forall_mem_cons, List.not_mem_nil, false_imp_iff,
      implies_true, and_true]
    exact ⟨hno 'i' _ _ (by decide), hno 'o' _ _ (by decide), hno 'f' _ _ (by decide),
      hno 'p' _ _ (by decide), hno 'p' _ _ (by decide), hno 'l' _ _ (by decide), hno 'd' _ _ (by decide),
      hno 'h' _ _ (by decide), hno '+' _ _ (by decide), hdigits, hno 'd' _ _ (by decide),
      hno 'n' _ _ (by decide), hno 'i' _ _ (by decide), hno 'b' _ _ (by decide), hno 'e' _ _ (by decide),
      hno 'e' _ _ (by decide), hno 'a' _ _ (by decide), hno 'i' _ _ (by decide), hno 't' _ _ (by decide),
      hno 't' _ _ (by decide), hno 'm' _ _ (by decide), hno 'a' _ _ (by decide), hno 'd' _ _ (by decide),
      huse, hno 'r' _ _ (by decide)⟩
  · change litThen "unique:".toList (runLen Char.isDigit) ("unique:".toList ++ w) = _
    unfold litThen
    rw [if_pos (List.isPrefixOf_iff_prefix.mpr (List.prefix_append _ _)), List.drop_left,
      runLen_self hne hw, Option.map_some, List.length_append]
  · intro r hr
    exact rules_le r (List.mem_of_mem_drop hr)

theorem yylex_unique {rest : Text} (hrest : Ends rest) (n : ℕ) :
    yylex ("unique:".toList ++ decimal n ++ rest) = .LEVEL_SPECIFY (decimal n) :: yylex rest := by
  have hhost : ∀ c ∈ "unique:".toList ++ decimal n, hostChar c := by
    intro c hc
    rcases List.mem_append.mp hc with hc | hc
    · exact List.all_eq_true.mp (show "unique:".toList.all hostChar = true by rfl) c hc
    · exact decimal_host n c hc
  exact yylex_word hrest (by simp) hhost (longest_unique (decimal_ne_nil n) (decimal_digit n))

/-! ### Marks -/

/-- The rules that start with what is no letter of a word. -/
def markRules : List (Rule Char Token) :=
  [word "+".toList .PLUS, word "/".toList .SLASH, word "-".toList .HYPHEN, port, ws, nl]

theorem longest_mark {c : Char} (rest : Text) (hc : hostChar c = false) :
    longest (c :: rest) policyRules = longest (c :: rest) markRules := by
  have hno : ∀ (a : Char) (s : Text) (t : Token), hostChar a → (word (a :: s) t).len (c :: rest) = none := by
    intro a s t ha
    apply litLen_mark
    rintro rfl
    exact absurd ha (by simp [hc])
  have hdigits : decstring.len (c :: rest) = none := by
    apply runLen_head
    cases hd : c.isDigit with
    | false => rfl
    | true => exact absurd (digit_host c hd) (by simp [hc])
  have hunique : uniqueDecstring.len (c :: rest) = none := by
    apply litThen_mark
    rintro rfl
    exact absurd hc (by decide)
  have hip : ipaddress.len (c :: rest) = none := by
    change ipaddressLen (c :: rest) = none
    unfold ipaddressLen
    rw [runLen_head _ hc, Option.map_none]
  have hfirst : ∀ r ∈ policyRules.take 8, r.len (c :: rest) = none := by
    simp only [policyRules, List.take, List.forall_mem_cons, List.not_mem_nil, false_imp_iff,
      implies_true, and_true]
    exact ⟨hno 'i' _ _ rfl, hno 'o' _ _ rfl, hno 'f' _ _ rfl, hno 'p' _ _ rfl, hno 'p' _ _ rfl,
      hno 'l' _ _ rfl, hno 'd' _ _ rfl, hno 'h' _ _ rfl⟩
  have hsecond : ∀ r ∈ (policyRules.drop 9).take 18, r.len (c :: rest) = none := by
    simp only [policyRules, List.take, List.drop, List.forall_mem_cons, List.not_mem_nil, false_imp_iff,
      implies_true, and_true]
    exact ⟨hdigits, hno 'd' _ _ rfl, hno 'n' _ _ rfl, hno 'i' _ _ rfl, hno 'b' _ _ rfl, hno 'e' _ _ rfl,
      hno 'e' _ _ rfl, hno 'a' _ _ rfl, hno 'i' _ _ rfl, hno 't' _ _ rfl, hno 't' _ _ rfl,
      hno 'm' _ _ rfl, hno 'a' _ _ rfl, hno 'd' _ _ rfl, hno 'u' _ _ rfl, hno 'r' _ _ rfl, hunique,
      hno 'u' _ _ rfl⟩
  have hthird : ∀ r ∈ [ipaddress], r.len (c :: rest) = none := by simp [hip]
  have hsplit : policyRules = policyRules.take 8 ++ word "+".toList .PLUS ::
      ((policyRules.drop 9).take 18 ++ word "/".toList .SLASH ::
        ([ipaddress] ++ [word "-".toList .HYPHEN, port, ws, nl])) := rfl
  rw [hsplit, longest_append_none hfirst]
  apply longest_cons_congr
  rw [longest_append_none hsecond]
  apply longest_cons_congr
  exact longest_append_none hthird

section MarkRules

theorem yylex_mark {c : Char} {t : Token} (rest : Text) (hc : hostChar c = false)
    (h : longest (c :: rest) markRules = some (1, word [c] t)) : yylex (c :: rest) = t :: yylex rest :=
  lex_match policyRules (w := [c]) (by simp) ((longest_mark rest hc).trans h)

theorem yylex_plus (rest : Text) : yylex ('+' :: rest) = .PLUS :: yylex rest := by
  apply yylex_mark rest (by decide)
  simp [markRules, longest, word, litLen, port, portLen, litThen, ws, runLen, isBlank, nl]

theorem yylex_slash (rest : Text) : yylex ('/' :: rest) = .SLASH :: yylex rest := by
  apply yylex_mark rest (by decide)
  simp [markRules, longest, word, litLen, port, portLen, litThen, ws, runLen, isBlank, nl]

theorem yylex_hyphen (rest : Text) : yylex ('-' :: rest) = .HYPHEN :: yylex rest := by
  apply yylex_mark rest (by decide)
  simp [markRules, longest, word, litLen, port, portLen, litThen, ws, runLen, isBlank, nl]

theorem yylex_nl (rest : Text) : yylex ('\n' :: rest) = yylex rest := by
  apply lex_match policyRules (w := ['\n']) (r := nl) (by simp)
  rw [List.singleton_append, longest_mark rest (by decide)]
  simp [markRules, longest, word, litLen, port, portLen, litThen, ws, runLen, isBlank, nl]

end MarkRules

/-- A mark that none of the rules knows. -/
theorem yylex_sharp (rest : Text) : yylex ('#' :: rest) = yylex rest := by
  apply lex_drop
  rw [longest_mark rest (by decide)]
  simp [markRules, longest, word, litLen, port, portLen, litThen, ws, runLen, isBlank, nl]

theorem blank_host {c : Char} (h : isBlank c) : hostChar c = false := by
  simp only [isBlank, Bool.or_eq_true, decide_eq_true_eq] at h
  rcases h with rfl | rfl <;> decide

/-- Blanks are taken together. -/
theorem yylex_dropBlanks (rest : Text) : yylex (rest.dropWhile isBlank) = yylex rest := by
  cases hblanks : rest.takeWhile isBlank with
  | nil =>
    have hwhole := List.takeWhile_append_dropWhile (p := isBlank) (l := rest)
    rw [hblanks, List.nil_append] at hwhole
    rw [hwhole]
  | cons c cs =>
    have hall : ∀ d ∈ c :: cs, isBlank d := by
      intro d hd
      rw [← hblanks] at hd
      exact List.mem_takeWhile_imp hd
    have hc : hostChar c = false := blank_host (hall c List.mem_cons_self)
    have hws : ws.len rest = some (c :: cs).length := by
      change runLen isBlank rest = some (c :: cs).length
      unfold runLen
      rw [hblanks]
      rfl
    have hwhole : rest = (c :: cs) ++ rest.dropWhile isBlank := by
      rw [← hblanks, List.takeWhile_append_dropWhile]
    have hmarks : longest rest markRules = some ((c :: cs).length, ws) := by
      have hnot : c ≠ '+' ∧ c ≠ '/' ∧ c ≠ '-' ∧ c ≠ '[' ∧ c ≠ '\n' := by
        refine ⟨?_, ?_, ?_, ?_, ?_⟩ <;> rintro rfl <;> exact absurd (hall _ List.mem_cons_self) (by decide)
      rw [hwhole] at hws ⊢
      rw [List.cons_append] at hws ⊢
      simp [markRules, longest, word, litLen, port, portLen, litThen, nl, hws, hnot.1.symm,
        hnot.2.1.symm, hnot.2.2.1.symm, hnot.2.2.2.1.symm, hnot.2.2.2.2.symm]
    have hlongest : longest ((c :: cs) ++ rest.dropWhile isBlank) policyRules = some ((c :: cs).length, ws) := by
      rw [List.cons_append, longest_mark _ hc, ← List.cons_append, ← hwhole, hmarks]
    have hlex := lex_match policyRules (List.cons_ne_nil c cs) hlongest
    rw [← hwhole] at hlex
    exact hlex.symm

/-- `[`, a number and `]`. -/
theorem yylex_port (rest : Text) (n : ℕ) :
    yylex ('[' :: (decimal n ++ ']' :: rest)) = .PORT (decimal n) :: yylex rest := by
  have hdigits : runLen Char.isDigit (decimal n ++ ']' :: rest) = some (decimal n).length := by
    apply runLen_all (decimal_ne_nil n) (decimal_digit n)
    intro c hc
    obtain rfl := Option.some.inj hc
    decide
  have hlen : port.len ('[' :: (decimal n ++ ']' :: rest)) = some ((decimal n).length + 2) := by
    have hopen : litThen ['['] (runLen Char.isDigit) ('[' :: (decimal n ++ ']' :: rest)) =
        some ((decimal n).length + 1) := by
      simp [litThen, hdigits, Nat.add_comm]
    change portLen ('[' :: (decimal n ++ ']' :: rest)) = some ((decimal n).length + 2)
    unfold portLen
    rw [hopen]
    simp
  have hmarks : longest ('[' :: (decimal n ++ ']' :: rest)) markRules = some ((decimal n).length + 2, port) := by
    simp [markRules, longest, word, litLen, hlen, ws, runLen, isBlank, nl]
  have hlongest : longest ('[' :: (decimal n ++ [']']) ++ rest) policyRules =
      some (('[' :: (decimal n ++ [']'])).length, port) := by
    rw [List.cons_append, List.append_assoc, List.singleton_append, longest_mark _ (by decide), hmarks]
    simp
  have hlex := lex_match policyRules (List.cons_ne_nil _ _) hlongest
  rw [List.cons_append, List.append_assoc, List.singleton_append] at hlex
  unfold yylex
  rw [hlex]
  simp [port]

theorem yylex_blank {c : Char} (rest : Text) (hc : isBlank c) : yylex (c :: rest) = yylex rest := by
  rw [← yylex_dropBlanks (c :: rest), List.dropWhile_cons_of_pos hc, yylex_dropBlanks]

/-- What is put between two requests. -/
def Blanks (text : Text) : Prop := text ≠ [] ∧ ∀ c ∈ text, isBlank c ∨ c = '\n'

theorem blanks_space : Blanks [' '] := by
  constructor
  · decide
  · simp [isBlank]

theorem yylex_blanks {text : Text} (htext : ∀ c ∈ text, isBlank c ∨ c = '\n') (rest : Text) :
    yylex (text ++ rest) = yylex rest := by
  induction text with
  | nil => rfl
  | cons c text ih =>
    have hskip : yylex (c :: (text ++ rest)) = yylex (text ++ rest) := by
      cases htext c List.mem_cons_self with
      | inl hblank => exact yylex_blank _ hblank
      | inr hnl =>
        rw [hnl]
        exact yylex_nl _
    rw [List.cons_append, hskip]
    exact ih fun d hd => htext d (List.mem_cons_of_mem _ hd)

/-! ### Addresses -/

def INET6_ADDRSTRLEN : ℕ := 46
def IFNAMSIZ : ℕ := 16

def addrChar (c : Char) : Bool := c.isDigit || 'a' ≤ c && c ≤ 'f' || c = ':' || c = '.'

/-- An address, and a scope of letters and digits. -/
def NumericHost (host : Text) : Prop :=
  ∃ addr scope, host = addr ++ scope ∧ (∀ c ∈ addr, addrChar c) ∧ (∃ c ∈ addr, c = ':' ∨ c = '.') ∧
    (scope = [] ∨ ∃ name, name ≠ [] ∧ (∀ c ∈ name, c.isAlphanum) ∧ scope = '%' :: name) ∧
    host.length < INET6_ADDRSTRLEN + IFNAMSIZ

theorem addrChar_host {c : Char} (h : addrChar c) : hostChar c := by
  simp only [addrChar, Bool.or_eq_true, Bool.and_eq_true, decide_eq_true_eq] at h
  rcases h with ((hdigit | ⟨hge, hle⟩) | rfl) | rfl
  · exact digit_host c hdigit
  · have hz : c.val ≤ 'z'.val := UInt32.le_trans hle (by decide)
    have hlower : c.isLower = true := Bool.and_eq_true_iff.mpr ⟨decide_eq_true hge, decide_eq_true hz⟩
    have halpha : c.isAlpha = true := Bool.or_eq_true_iff.mpr (.inr hlower)
    simp [hostChar, Char.isAlphanum, halpha]
  · decide
  · decide

theorem letter_host {c : Char} (h : c.isAlpha) : hostChar c ∧ c ≠ ':' ∧ c ≠ '.' := by
  refine ⟨by simp [hostChar, Char.isAlphanum, h], ?_, ?_⟩ <;> rintro rfl <;> exact absurd h (by decide)

section Host
variable {addr : Text} (haddr : ∀ c ∈ addr, addrChar c) (hmark : ∃ c ∈ addr, c = ':' ∨ c = '.')
include haddr hmark

/-- The rules in front of the one for addresses match less than the address. -/
theorem host_before {tail : Text} (htail : Stops tail) :
    ∀ r ∈ policyRules.take 28, ∀ n, r.len (addr ++ tail) = some n → n < addr.length := by
  obtain ⟨m, hm, hcolon⟩ := hmark
  obtain ⟨c, cs, rfl⟩ := List.exists_cons_of_ne_nil (List.ne_nil_of_mem hm)
  have hc : addrChar c := haddr c List.mem_cons_self
  have hword : ∀ (s : Text) (t : Token), s.all Char.isAlpha = true →
      ∀ n, (word s t).len (c :: cs ++ tail) = some n → n < (c :: cs).length := by
    intro s t hletters n hn
    have hs : ∀ a ∈ s, hostChar a ∧ a ≠ ':' ∧ a ≠ '.' := fun a ha => letter_host (List.all_eq_true.mp hletters a ha)
    have hself : litLen s (c :: cs) = some n := (litLen_append (fun a ha => (hs a ha).1) htail).symm.trans hn
    have hle := litLen_le hself
    apply Nat.lt_of_le_of_ne hle
    rintro rfl
    unfold litLen at hself
    split at hself
    · next hpre =>
      have hlen := Option.some.inj hself
      have heq : s = c :: cs := (List.isPrefixOf_iff_prefix.mp hpre).eq_of_length hlen
      rw [← heq] at hm
      have hno := (hs m hm).2
      cases hcolon with
      | inl hcolon => exact hno.1 hcolon
      | inr hdot => exact hno.2 hdot
    · cases hself
  have hmarkWord : ∀ (a : Char) (t : Token), hostChar a = false →
      ∀ n, (word [a] t).len (c :: (cs ++ tail)) = some n → n < (c :: cs).length := by
    intro a t ha n
    apply word_not_lt
    rintro rfl
    exact absurd (addrChar_host hc) (by simp [ha])
  have hdigits : ∀ n, decstring.len (c :: cs ++ tail) = some n → n < (c :: cs).length := by
    intro n hn
    have hself : runLen Char.isDigit (c :: cs) = some n :=
      (runLen_append fun d hd => htail.head hd digit_host).symm.trans hn
    have hle := runLen_le hself
    apply Nat.lt_of_le_of_ne hle
    rintro rfl
    have hall := runLen_full hself m hm
    rcases hcolon with rfl | rfl <;> exact absurd hall (by decide)
  have hunique : ∀ n, uniqueDecstring.len (c :: (cs ++ tail)) = some n → n < (c :: cs).length := by
    intro n hn
    have hnone : litThen "unique:".toList (runLen Char.isDigit) (c :: (cs ++ tail)) = none := by
      apply litThen_mark
      rintro rfl
      exact absurd hc (by decide)
    exact absurd (hnone.symm.trans hn) (by simp)
  simp only [policyRules, List.take, List.forall_mem_cons, List.not_mem_nil, false_imp_iff,
    implies_true, and_true]
  exact ⟨hword _ _ rfl, hword _ _ rfl, hword _ _ rfl, hword _ _ rfl, hword _ _ rfl, hword _ _ rfl,
    hword _ _ rfl, hword _ _ rfl, hmarkWord '+' _ rfl, hdigits, hword _ _ rfl, hword _ _ rfl,
    hword _ _ rfl, hword _ _ rfl, hword _ _ rfl, hword _ _ rfl, hword _ _ rfl, hword _ _ rfl,
    hword _ _ rfl, hword _ _ rfl, hword _ _ rfl, hword _ _ rfl, hword _ _ rfl, hword _ _ rfl,
    hword _ _ rfl, hunique, hword _ _ rfl, hmarkWord '/' _ rfl⟩

/-- The rules behind it match nothing. -/
theorem host_after (tail : Text) : ∀ r ∈ policyRules.drop 29, r.len (addr ++ tail) = none := by
  obtain ⟨m, hm, -⟩ := hmark
  obtain ⟨c, cs, rfl⟩ := List.exists_cons_of_ne_nil (List.ne_nil_of_mem hm)
  have hne : ∀ a, addrChar a = false → a ≠ c := by
    rintro a ha rfl
    exact absurd (haddr a List.mem_cons_self) (by simp [ha])
  have hblank : isBlank c = false := by
    simp [isBlank, (hne ' ' (by decide)).symm, (hne '\t' (by decide)).symm]
  have hhyphen : (word "-".toList .HYPHEN).len (c :: cs ++ tail) = none := litLen_mark (hne '-' (by decide))
  have hport : portLen (c :: cs ++ tail) = none := by
    unfold portLen
    rw [List.cons_append, litThen_mark _ (hne '[' (by decide))]
  have hws : runLen isBlank (c :: cs ++ tail) = none := runLen_head _ hblank
  have hnl : litLen ['\n'] (c :: cs ++ tail) = none := litLen_mark (hne '\n' (by decide))
  simp only [policyRules, List.drop, List.forall_mem_cons, List.not_mem_nil, false_imp_iff,
    implies_true, and_true]
  exact ⟨hhyphen, hport, hws, hnl⟩

end Host

theorem yylex_host {host : Text} (hhost : NumericHost host) (rest : Text) :
    yylex (host ++ '[' :: rest) = .IPADDRESS host :: yylex ('[' :: rest) := by
  obtain ⟨addr, scope, rfl, haddr, hmark, hscope, -⟩ := hhost
  have hstops : Stops (scope ++ '[' :: rest) := by
    rcases hscope with rfl | ⟨name, -, -, rfl⟩
    · exact stops_cons rest (by decide)
    · exact stops_cons _ (by decide)
  have hne : addr ≠ [] := by
    obtain ⟨m, hm, -⟩ := hmark
    exact List.ne_nil_of_mem hm
  have hlen : ipaddressLen (addr ++ (scope ++ '[' :: rest)) = some (addr ++ scope).length := by
    unfold ipaddressLen
    rw [runLen_all hne (fun c hc => addrChar_host (haddr c hc)) hstops, Option.map_some, List.drop_left]
    rcases hscope with rfl | ⟨name, hname, halnum, rfl⟩
    · rw [List.nil_append, litThen_mark _ (by decide), List.append_nil]
    · have hname' : runLen Char.isAlphanum (name ++ '[' :: rest) = some name.length := by
        apply runLen_all hname halnum
        intro c hc
        obtain rfl := Option.some.inj hc
        decide
      simp [litThen, hname', Nat.add_comm]
  have hsplit : policyRules = policyRules.take 28 ++ ipaddress :: policyRules.drop 29 := rfl
  have hlongest : longest (addr ++ scope ++ '[' :: rest) policyRules = some ((addr ++ scope).length, ipaddress) := by
    rw [List.append_assoc, hsplit]
    apply longest_first _ hlen
    · intro r hr n hn
      exact absurd ((host_after haddr hmark _ r hr).symm.trans hn) (by simp)
    · intro r hr n hn
      have hlt := host_before haddr hmark hstops r hr n hn
      rw [List.length_append]
      omega
  exact lex_match policyRules (by simp [hne]) hlongest

end WanStack.Libipsec
