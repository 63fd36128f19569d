import WanStack.Radvd.Gram

set_option autoImplicit false

/-!
# Reading the configuration

What `readin_config` returns when the file is refused after some of its interfaces
were read, and when it is accepted.
-/
namespace WanStack.Radvd.Gram
open Aftr (Buf)

/-- Between `interface name` and the `;` of the definition. -/
def Place.inside : Place → Bool
  | .grammar => false
  | .ifacename => false
  | .failed => false
  | _ => true

/-- The names that stand behind `interface`. -/
def namesFrom : Bool → List Token → List Buf
  | _, [] => []
  | true, .STRING name :: toks => ifname name :: namesFrom false toks
  | _, t :: toks => namesFrom (t = .T_INTERFACE) toks

def definitions (toks : List Token) : List Buf := namesFrom false toks

/-- What a token can do to the interfaces. -/
inductive Moves (p : Parser) (t : Token) (q : Parser) : Prop where
  | refused (hplace : q.place = .failed) (hlist : q.IfaceList = p.IfaceList)
  | duplicate (name : Buf) (freed : List Cell) (hname : t = .STRING name)
      (hfreed : freeFrom name p.IfaceList = some freed) (hplace : q.place = .failed) (hlist : q.IfaceList = freed)
  | begun (hp : p.place = .grammar) (ht : t = .T_INTERFACE) (hplace : q.place = .ifacename)
      (hlist : q.IfaceList = p.IfaceList) (hiface : q.iface = p.iface)
  | named (name : Buf) (hp : p.place = .ifacename) (ht : t = .STRING name) (hplace : q.place = .ifaceopen)
      (hlist : q.IfaceList = p.IfaceList)
      (hiface : q.iface.map (·.name) = some (ifname name))
  | inside (hp : p.place.inside = true) (ht : t ≠ .T_INTERFACE) (hplace : q.place.inside = true)
      (hlist : q.IfaceList = p.IfaceList) (hiface : q.iface.map (·.name) = p.iface.map (·.name))
  | done (iface : IfaceConf) (hp : p.place = .ifaceclose) (ht : t = .SEMICOLON) (hiface : p.iface = some iface)
      (hplace : q.place = .grammar) (hlist : q.IfaceList = { conf := iface, live := true } :: p.IfaceList)
      (hnone : q.iface = none)

section Step
variable (p : Parser)

theorem moves_error (t : Token) : Moves p t p.error := .refused rfl rfl

theorem moves_abort (t : Token) : Moves p t p.abort := .refused rfl rfl

/-- A token that only moves on inside a definition. -/
theorem moves_goto {t : Token} (place : Place) (hp : p.place.inside = true) (ht : t ≠ .T_INTERFACE)
    (hplace : place.inside = true) : Moves p t (p.goto place) :=
  .inside hp ht hplace rfl rfl

theorem ifaceval_name (v : IfaceVal) (iface : IfaceConf) : (ifaceval v iface).name = iface.name := by
  cases v <;> rfl

theorem ifacehead_moves (name : Buf) (hp : p.place = .ifacename) :
    Moves p (.STRING name) (ifacehead name p) := by
  unfold ifacehead
  split
  · next freed hfreed => exact .duplicate name freed rfl hfreed rfl rfl
  · exact .named name hp rfl rfl rfl rfl

theorem ifacedef_moves (hp : p.place = .ifaceclose) : Moves p .SEMICOLON (ifacedef p) := by
  unfold ifacedef
  split
  · exact moves_error p _
  · next iface hiface => exact .done iface hp rfl hiface rfl rfl rfl

section Inside
variable {p} (hp : p.place.inside = true) {t : Token} (ht : t ≠ .T_INTERFACE)
include hp ht

theorem prefixhead_moves (a : In6Addr) (n : UInt32) : Moves p t (prefixhead a n p) := by
  unfold prefixhead
  split
  · exact moves_abort p _
  · exact .inside hp ht rfl rfl rfl

theorem prefixdef_moves : Moves p t (prefixdef p) := by
  unfold prefixdef
  split
  · next pfx iface _ hiface =>
    split
    · exact moves_abort p _
    · split
      · exact moves_abort p _
      · exact .inside hp ht rfl rfl (by rw [hiface]; rfl)
  · exact moves_error p _

theorem routehead_moves (a : In6Addr) (n : UInt32) : Moves p t (routehead a n p) := by
  unfold routehead
  split
  · exact moves_error p _
  · split
    · exact moves_abort p _
    · exact .inside hp ht rfl rfl rfl

theorem rdnssaddr_moves (a : In6Addr) : Moves p t (rdnssaddr a p) := by
  unfold rdnssaddr
  split
  · exact moves_error p _
  · split
    · exact moves_abort p _
    · exact .inside hp ht rfl rfl rfl

theorem dnsslsuffix_moves (s : Buf) : Moves p t (dnsslsuffix s p) := by
  unfold dnsslsuffix
  split
  · exact moves_error p _
  · split
    · exact .inside hp ht rfl rfl rfl
    · exact moves_abort p _

theorem parm_moves (v : Parm) (b : Block) : Moves p t ((parm v p).goto (.params b)) := by
  apply Moves.inside hp ht rfl
  · cases v <;> rfl
  · cases v with
    | iface v =>
      change (p.iface.map (ifaceval v)).map (·.name) = p.iface.map (·.name)
      rw [Option.map_map]
      congr 1
      funext iface
      exact ifaceval_name v iface
    | pfx v => rfl
    | route v => rfl
    | rdnss v => rfl
    | dnssl v => rfl
    | lowpanco v => rfl
    | abro v => rfl

theorem definition_moves (b : Block) : Moves p t (definition b p) := by
  cases b with
  | iface => exact moves_error p _
  | pfx => exact prefixdef_moves hp ht
  | route | rdnss | dnssl | lowpanco | abro =>
    refine Moves.inside hp ht ?_ ?_ ?_
    · rfl
    · rfl
    · exact Option.map_map _ _ _

theorem addrsdef_moves (l : AddrList) (as : List In6Addr) : Moves p t (addrsdef l as p) := by
  cases l with
  | clients | rasrcaddress =>
    refine Moves.inside hp ht ?_ ?_ ?_
    · rfl
    · rfl
    · exact Option.map_map _ _ _

theorem ifaceparam_moves : Moves p t (ifaceparam p t) := by
  unfold ifaceparam
  split
  all_goals first
    | exact moves_goto p _ hp ht rfl
    | exact .inside hp ht rfl rfl rfl
    | skip
  split
  · exact moves_goto p _ hp ht rfl
  · exact moves_error p _

theorem defparam_moves (b : Block) : Moves p t (defparam b p t) := by
  unfold defparam
  split
  · exact moves_goto p _ hp ht rfl
  · split
    · exact moves_goto p _ hp ht rfl
    · exact moves_error p _

end Inside

theorem parmOf_interface (b : Block) (k : Token) : parmOf b k .T_INTERFACE = none := by
  cases b with
  | iface =>
    change (ifacevalOf k .T_INTERFACE).map Parm.iface = none
    unfold ifacevalOf
    split <;> rfl
  | pfx =>
    change (prefixparmOf k .T_INTERFACE).map Parm.pfx = none
    unfold prefixparmOf
    split <;> rfl
  | route =>
    change (routeparmOf k .T_INTERFACE).map Parm.route = none
    unfold routeparmOf
    split <;> rfl
  | rdnss =>
    change (rdnssparmOf k .T_INTERFACE).map Parm.rdnss = none
    unfold rdnssparmOf
    split <;> rfl
  | dnssl =>
    change (dnsslparmOf k .T_INTERFACE).map Parm.dnssl = none
    unfold dnsslparmOf
    split <;> rfl
  | lowpanco =>
    change (lowpancoparmOf k .T_INTERFACE).map Parm.lowpanco = none
    unfold lowpancoparmOf
    split <;> rfl
  | abro =>
    change (abroparmOf k .T_INTERFACE).map Parm.abro = none
    unfold abroparmOf
    split <;> rfl

/-- No definition of an interface stands in another. -/
theorem step_interface (hp : p.place.inside = true) : step p .T_INTERFACE = p.error := by
  unfold step
  cases hplace : p.place with
  | grammar => exact absurd (hplace ▸ hp) (by decide)
  | ifacename => exact absurd (hplace ▸ hp) (by decide)
  | failed => exact absurd (hplace ▸ hp) (by decide)
  | params b => cases b <;> rfl
  | keyword b k =>
    dsimp only
    rw [parmOf_interface]
  | _ => rfl

theorem step_moves (t : Token) : Moves p t (step p t) := by
  by_cases hp : p.place.inside = true
  · by_cases ht : t = .T_INTERFACE
    · rw [ht, step_interface p hp]
      exact moves_error p _
    · unfold step
      cases hplace : p.place with
      | grammar => exact absurd (hplace ▸ hp) (by decide)
      | ifacename => exact absurd (hplace ▸ hp) (by decide)
      | failed => exact absurd (hplace ▸ hp) (by decide)
      | ifaceclose =>
        dsimp only
        split
        · next hsemi => exact hsemi ▸ ifacedef_moves p hplace
        · exact moves_error p _
      | params b =>
        cases b with
        | iface => exact ifaceparam_moves hp ht
        | pfx | route | rdnss | dnssl | lowpanco | abro => exact defparam_moves hp ht _
      | keyword b k =>
        dsimp only
        split
        · exact moves_goto p _ hp ht rfl
        · exact moves_error p _
      | value b v =>
        dsimp only
        split
        · exact parm_moves hp ht v b
        · exact moves_error p _
      | defclose b =>
        dsimp only
        split
        · exact definition_moves hp ht b
        · exact moves_error p _
      | addrsclose l as =>
        dsimp only
        split
        · exact addrsdef_moves hp ht l as
        · exact moves_error p _
      | ifaceopen | defopen | prefixslash | routeslash | addrsopen | addrsemi =>
        dsimp only
        split
        · exact moves_goto p _ hp ht rfl
        · exact moves_error p _
      | prefixaddr | routeaddr | abroaddr =>
        dsimp only
        split
        · exact moves_goto p _ hp ht rfl
        · exact moves_error p _
      | prefixlen a =>
        dsimp only
        split
        · exact prefixhead_moves hp ht a _
        · exact moves_error p _
      | prefixopt =>
        dsimp only
        split
        · exact moves_goto p _ hp ht rfl
        · exact prefixdef_moves hp ht
        · exact moves_error p _
      | routelen a =>
        dsimp only
        split
        · exact routehead_moves hp ht a _
        · exact moves_error p _
      | rdnssaddrs found =>
        cases t with
        | IPV6ADDR a => exact rdnssaddr_moves hp ht a
        | LBRACE =>
          dsimp only
          split
          · exact moves_goto p _ hp ht rfl
          · exact moves_error p _
        | _ => exact moves_error p _
      | dnsslsuffixes found =>
        dsimp only
        split
        · exact dnsslsuffix_moves hp ht _
        · split
          · exact moves_goto p _ hp ht rfl
          · exact moves_error p _
        · exact moves_error p _
      | abroopt a =>
        dsimp only
        split
        · exact moves_goto p _ hp ht rfl
        · exact .inside hp ht rfl rfl rfl
        · exact moves_error p _
      | abrolen a =>
        dsimp only
        split
        · exact .inside hp ht rfl rfl rfl
        · exact moves_error p _
      | addrs l as =>
        cases t with
        | IPV6ADDR a => exact moves_goto p _ hp ht rfl
        | RBRACE =>
          dsimp only
          split
          · exact moves_error p _
          · exact moves_goto p _ hp ht rfl
        | _ => exact moves_error p _
  · unfold step
    cases hplace : p.place with
    | grammar =>
      dsimp only
      split
      · next ht => exact .begun hplace ht rfl rfl rfl
      · exact moves_error p _
    | ifacename =>
      dsimp only
      split
      · exact ifacehead_moves p _ hplace
      · exact moves_error p _
    | failed => exact .refused hplace rfl
    | _ => rw [hplace] at hp; exact absurd rfl hp

end Step

/-! ### Runs -/

theorem freeFrom_ne_nil {name : Buf} {cells freed : List Cell} (h : freeFrom name cells = some freed) :
    cells ≠ [] ∧ freed ≠ [] := by
  cases cells with
  | nil => cases h
  | cons c cs =>
    refine ⟨List.cons_ne_nil c cs, ?_⟩
    unfold freeFrom at h
    split at h
    · obtain rfl := Option.some.inj h
      simp
    · obtain ⟨rest, -, rfl⟩ := Option.map_eq_some_iff.mp h
      exact List.cons_ne_nil c rest

/-- The list is not emptied again; only the end of a definition makes it longer. -/
theorem step_list (p : Parser) (t : Token) :
    (p.IfaceList ≠ [] → (step p t).IfaceList ≠ []) ∧
      ((step p t).IfaceList ≠ [] → p.IfaceList ≠ [] ∨ accepted (step p t) = true) := by
  cases step_moves p t with
  | refused _ hlist => exact hlist ▸ ⟨id, .inl⟩
  | duplicate name freed _ hfreed _ hlist =>
    obtain ⟨hne, hfne⟩ := freeFrom_ne_nil hfreed
    rw [hlist]
    exact ⟨fun _ => hfne, fun _ => .inl hne⟩
  | begun _ _ _ hlist => exact hlist ▸ ⟨id, .inl⟩
  | named _ _ _ _ hlist => exact hlist ▸ ⟨id, .inl⟩
  | inside _ _ _ hlist => exact hlist ▸ ⟨id, .inl⟩
  | done iface _ _ _ hplace hlist =>
    refine ⟨fun _ => by rw [hlist]; exact List.cons_ne_nil _ _, fun _ => .inr ?_⟩
    simp [accepted, hplace, hlist]

theorem parse_append (p : Parser) (w toks : List Token) : parse p (w ++ toks) = parse (parse p w) toks :=
  List.foldl_append

theorem parse_keeps (p : Parser) (toks : List Token) (h : p.IfaceList ≠ []) : (parse p toks).IfaceList ≠ [] := by
  induction toks generalizing p with
  | nil => exact h
  | cons t toks ih => exact ih (step p t) ((step_list p t).1 h)

/-- Where interfaces are in the list, a beginning of the text was a configuration. -/
theorem exists_accepted {p : Parser} (hp : p.IfaceList = []) (toks : List Token)
    (h : (parse p toks).IfaceList ≠ []) : ∃ w, w <+: toks ∧ accepted (parse p w) = true := by
  induction toks using List.reverseRecOn with
  | nil => exact absurd hp h
  | append_singleton toks t ih =>
    rw [parse_append] at h
    cases (step_list (parse p toks) t).2 h with
    | inl hbefore =>
      obtain ⟨w, hw, hacc⟩ := ih hbefore
      exact ⟨w, hw.trans (List.prefix_append toks [t]), hacc⟩
    | inr hacc =>
      refine ⟨toks ++ [t], List.prefix_refl _, ?_⟩
      rw [parse_append]
      exact hacc

theorem parse_failed {p : Parser} (hp : p.place = .failed) (toks : List Token) :
    (parse p toks).place = .failed := by
  induction toks generalizing p with
  | nil => exact hp
  | cons t toks ih =>
    apply ih
    unfold step
    rw [hp]
    exact hp

/-- Before an error, the interfaces are all live, one for each definition read, the last first. -/
structure Sound (p : Parser) (names : List Buf) : Prop where
  live : ∀ c ∈ p.IfaceList, c.live = true
  outside : p.place.inside = false → p.iface = none
  names_eq : (p.iface.map (·.name)).toList ++ p.IfaceList.map (·.conf.name) = names.reverse

theorem namesFrom_false (t : Token) (toks : List Token) :
    namesFrom false (t :: toks) = namesFrom (t = .T_INTERFACE) toks := by
  cases t <;> rfl

/-- One step, and what the names of the rest are then added to. -/
theorem Sound.step {p : Parser} {names : List Buf} (h : Sound p names) (t : Token)
    (hok : (step p t).place ≠ .failed) (toks : List Token) :
    ∃ names', Sound (Gram.step p t) names' ∧
      names ++ namesFrom (p.place = .ifacename) (t :: toks) =
        names' ++ namesFrom ((Gram.step p t).place = .ifacename) toks := by
  cases step_moves p t with
  | refused hplace _ => exact absurd hplace hok
  | duplicate _ _ _ _ hplace _ => exact absurd hplace hok
  | begun hp ht hplace hlist hiface =>
    refine ⟨names, ⟨?_, ?_, ?_⟩, ?_⟩
    · rw [hlist]
      exact h.live
    · intro _
      rw [hiface]
      exact h.outside (by rw [hp]; rfl)
    · rw [hlist, hiface]
      exact h.names_eq
    · rw [hp, hplace, ht]
      rfl
  | named name hp ht hplace hlist hiface =>
    have hnone : p.iface = none := h.outside (by rw [hp]; rfl)
    have hnames := h.names_eq
    rw [hnone] at hnames
    refine ⟨names ++ [ifname name], ⟨?_, ?_, ?_⟩, ?_⟩
    · rw [hlist]
      exact h.live
    · intro hin
      rw [hplace] at hin
      cases hin
    · rw [hlist, hiface, List.reverse_append, ← hnames]
      rfl
    · rw [hp, hplace, ht, List.append_assoc]
      rfl
  | inside hp ht hplace hlist hiface =>
    refine ⟨names, ⟨?_, ?_, ?_⟩, ?_⟩
    · rw [hlist]
      exact h.live
    · intro hin
      rw [hplace] at hin
      cases hin
    · rw [hlist, hiface]
      exact h.names_eq
    · have hnot : ∀ q : Place, q.inside = true → decide (q = .ifacename) = false := by
        intro q hq
        cases q <;> first | rfl | cases hq
      rw [hnot _ hp, hnot _ hplace, namesFrom_false, decide_eq_false ht]
  | done iface hp ht hiface hplace hlist hnone =>
    refine ⟨names, ⟨?_, ?_, ?_⟩, ?_⟩
    · rw [hlist]
      exact List.forall_mem_cons.mpr ⟨rfl, h.live⟩
    · exact fun _ => hnone
    · rw [hlist, hnone, ← h.names_eq, hiface]
      rfl
    · rw [hp, hplace, ht]
      rfl

theorem Sound.parse {p : Parser} {names : List Buf} (h : Sound p names) (toks : List Token)
    (hok : (parse p toks).place ≠ .failed) :
    Sound (Gram.parse p toks) (names ++ namesFrom (p.place = .ifacename) toks) := by
  induction toks generalizing p names with
  | nil =>
    have hnil : ∀ b, namesFrom b [] = [] := fun b => by cases b <;> rfl
    rw [hnil, List.append_nil]
    exact h
  | cons t toks ih =>
    have hstep : (Gram.step p t).place ≠ .failed := fun hfail => hok (parse_failed hfail toks)
    obtain ⟨names', hsound, hnames⟩ := h.step t hstep toks
    rw [hnames]
    exact ih hsound hok

/-! ### All or nothing -/

/-- A list is returned only for a text that is accepted, with one live interface for
    each definition. -/
def AllOrNothing (g : Globals) (file : Option (List Token)) : Prop :=
  readinConfig g file ≠ [] → ∃ toks, file = some toks ∧ accepted (parse (fresh g) toks) = true ∧
    (∀ c ∈ readinConfig g file, c.live = true) ∧
    (readinConfig g file).map (·.conf.name) = (definitions toks).reverse

/-- The text is accepted, or no beginning of it is: the error is in the first
    definition. A file that cannot be opened was never read before. -/
def Whole (g : Globals) : Option (List Token) → Prop
  | none => g.IfaceList = []
  | some toks => accepted (parse (fresh g) toks) = true ∨
      ∀ w, w <+: toks → accepted (parse (fresh g) w) = false

theorem accepted_list {p : Parser} (h : accepted p = true) : p.place = .grammar ∧ p.IfaceList ≠ [] := by
  simpa [accepted] using h

/-- When `readin_config` is all or nothing. -/
theorem allOrNothing_iff (g : Globals) (file : Option (List Token)) : AllOrNothing g file ↔ Whole g file := by
  cases file with
  | none =>
    constructor
    · intro h
      by_contra hne
      obtain ⟨toks, hfile, -⟩ := h hne
      cases hfile
    · exact fun hnil hne => absurd hnil hne
  | some toks =>
    constructor
    · intro h
      by_contra hnot
      simp only [Whole, not_or, not_forall, Bool.not_eq_true, Bool.not_eq_false] at hnot
      obtain ⟨hrefused, w, ⟨rest, rfl⟩, hacc⟩ := hnot
      have hkept : readinConfig g (some (w ++ rest)) ≠ [] := by
        change (parse (fresh g) (w ++ rest)).IfaceList ≠ []
        rw [parse_append]
        exact parse_keeps _ rest (accepted_list hacc).2
      obtain ⟨toks, hfile, haccepted, -⟩ := h hkept
      obtain rfl := Option.some.inj hfile
      exact absurd haccepted (by simp [hrefused])
    · intro hwhole hne
      cases hwhole with
      | inl hacc =>
        have hstart : Sound (fresh g) [] :=
          { live := by simp [fresh]
            outside := fun _ => rfl
            names_eq := rfl }
        have hplace := (accepted_list hacc).1
        have hsound := hstart.parse toks (by rw [hplace]; decide)
        have hnone := hsound.outside (by rw [hplace]; rfl)
        have hnames := hsound.names_eq
        rw [hnone] at hnames
        exact ⟨toks, rfl, hacc, hsound.live, hnames⟩
      | inr hnever =>
        obtain ⟨w, hw, hacc⟩ := exists_accepted rfl toks hne
        exact absurd hacc (by simp [hnever w hw])

/-- The parser of a program that has read nothing yet. -/
def initial : Globals where
  IfaceList := []
  iface := none
  pfx := none
  route := none
  rdnss := none
  dnssl := none
  lowpanco := none
  abro := none

/-- `interface eth0 { }; interface eth1 { }`, without the last semicolon. -/
def unfinished : List Token :=
  [.T_INTERFACE, .STRING [101, 116, 104, 48], .LBRACE, .RBRACE, .SEMICOLON,
    .T_INTERFACE, .STRING [101, 116, 104, 49], .LBRACE, .RBRACE]

theorem unfinished_returned : ¬∀ g file, AllOrNothing g file := by
  intro hall
  have hlist : (readinConfig initial (some unfinished)).isEmpty = false := by decide +kernel
  have hrefused : accepted (parse (fresh initial) unfinished) = false := by decide +kernel
  obtain ⟨toks, hfile, hacc, -⟩ := hall initial (some unfinished) (by
    intro hnil
    rw [hnil] at hlist
    cases hlist)
  obtain rfl := Option.some.inj hfile
  exact absurd hacc (by simp [hrefused])

end WanStack.Radvd.Gram
