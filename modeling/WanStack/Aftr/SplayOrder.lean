import WanStack.Aftr.Runs

set_option autoImplicit false

/-!
# The splay trees and their comparison

`nat_splay_compare_abs` takes the left operand's word for what a wildcard is.
It is an order on a splay tree just when, at every inside address and port, the
wildcards have destinations before those of the other entries.
-/
namespace WanStack.Aftr
open SearchTree FieldOrder Relation

/-- The comparison orders each splay tree, every entry is found and removed by
    the search for itself, and what `del_nat` frees nothing points to. -/
structure SplaySound (s : State) : Prop where
  total : ∀ k, TotalOn natSplayCompareAbs {n | n ∈ s.nats.splay k}
  found : ∀ t pr, ∀ n ∈ s.nats.splay (t, pr), s.nats.natSplayRoFind pr n true = some n
  removed : ∀ t pr, ∀ n ∈ s.nats.splay (t, pr), (s.nats.natSplayRemove pr n).2 = true ∧
    n ∉ (s.nats.natSplayRemove pr n).1.splay (t, pr)
  freed : ∀ cfg seconds n, Known s n → ¬ Known (delNat cfg seconds n s) n

section
variable {cfg : Conf} {m : Mode} {s s' : State}

theorem natSplayRemove_splay (s : Nats) (pr : Pr) (n : NatEntry) :
    (s.natSplayRemove pr n).1.splay (n.tunnel, pr) =
      toList (Splay.remove (natSplayCompareAbs n) (s.root (n.tunnel, pr))).1 := by
  simp [Nats.natSplayRemove, Nats.splay]

theorem Linked.splaySound (hl : Linked s) (ho : s.Ordered) : SplaySound s where
  total k := (hl.total ho).mono fun n hn => (hl.mem_splay.mp hn).2
  found t pr n hn := by
    obtain ⟨hk, hlive⟩ := hl.mem_splay.mp hn
    simp only [Prod.mk.injEq] at hk
    obtain ⟨rfl, rfl⟩ := hk
    exact (hl.sorted _).find_self (hl.total ho) (fun x hx => hl.live x (.of_splay hx)) hn
  removed t pr n hn := by
    obtain ⟨hk, hlive⟩ := hl.mem_splay.mp hn
    simp only [Prod.mk.injEq] at hk
    obtain ⟨rfl, rfl⟩ := hk
    obtain ⟨htrue, hrem⟩ := hl.removed ho hlive
    refine ⟨htrue, ?_⟩
    rw [natSplayRemove_splay, hrem.mem (hl.nodup_splay ho _)]
    exact fun h => h.2 rfl
  freed cfg seconds n hn h := (hl.delNat_known ho hn seconds h).2 rfl

/-- Where the comparison is an order the destinations are ordered: otherwise
    each of two entries would be before the other. -/
theorem ordered_of_total (hb : Base s)
    (hsplay : ∀ n ∈ s.nats.live, n ∈ s.nats.splay (n.tunnel, n.proto))
    (ht : ∀ k, TotalOn natSplayCompareAbs {n | n ∈ s.nats.splay k}) : s.Ordered := by
  intro w hw a ha hpre hwild hplain
  obtain ⟨htun, hpr, -, -⟩ := inside_eq.mp hpre
  have hsame : a ∈ s.nats.splay (w.tunnel, w.proto) := by
    rw [htun, hpr]
    exact hsplay a ha
  have hwa : natSplayCompareAbs w a < 0 := by
    simp [natSplayCompareAbs, compareAbs, hpre, hwild, hplain]
  have haw := ((ht _).neg_iff hsame (hsplay w hw)).mp hwa
  have hmatch := hb.flags a (.of_live ha)
  simp only [natSplayCompareAbs, compareAbs, hpre, lexDiff_self, hplain,
    Bool.false_eq_true, if_false, comparePeer, hmatch, if_true, orElse] at haw
  split_ifs at haw <;> omega

/-- A growing sequence keeps the live entries in the splay trees, whatever the
    comparison does. -/
theorem Base.moves_splay (hb : Base s) (h : Moves cfg m s s') (hm : m.grow = true)
    (hsplay : ∀ n ∈ s.nats.live, n ∈ s.nats.splay (n.tunnel, n.proto)) :
    ∀ n ∈ s'.nats.live, n ∈ s'.nats.splay (n.tunnel, n.proto) := by
  induction h with
  | refl => exact hsplay
  | tail h hmove ih =>
    intro n hn
    rcases (hb.moves h).effect hmove with he | ⟨x, -, hl, -⟩ | ⟨x, c, seconds, hm', -⟩
    · rw [he.splay]
      rw [he.live] at hn
      exact ih n hn
    · rcases hl.live.mp hn with rfl | hn
      · exact hl.root.mem.mpr (.inl rfl)
      · by_cases hk : (n.tunnel, n.proto) = (x.tunnel, x.proto)
        · rw [hk]
          exact hl.root.mem.mpr (.inr (hk ▸ ih n hn))
        · rw [hl.rootOther _ hk]
          exact ih n hn
    · simp [hm] at hm'

theorem step_ordered (hl : Linked s) (ho : s.Ordered) (e : Event)
    (ht : SplaySound (step cfg s e)) : (step cfg s e).Ordered := by
  have hmoves := step_moves cfg hl.tuns e
  cases hm : (stepMode s e).grow with
  | true => exact ordered_of_total (hl.toBase.moves hmoves) (hl.moves_splay hmoves hm hl.splay) ht.total
  | false => exact ho.mono (hl.toBase.moves_shrink hmoves hm)

end

/-- The comparison of the splay trees is an order all along a run, with all
    that rests on it, exactly when the destinations are ordered all along. -/
theorem run_splaySound_iff (cfg : Conf) (ports : Ports) (rnd₁ rnd₂ rnd₃ : UInt32)
    (es : List Event) : Always cfg SplaySound (start ports rnd₁ rnd₂ rnd₃) es ↔
      Always cfg State.Ordered (start ports rnd₁ rnd₂ rnd₃) es := by
  constructor
  · intro h
    have hl := linked_start ports rnd₁ rnd₂ rnd₃
    refine (h.keep (I := fun s => Linked s ∧ s.Ordered)
      ⟨hl, ordered_of_total hl.toBase hl.splay h.head.total⟩ ?_).imp fun s h => h.2
    rintro s e ⟨hl, ho⟩ - hs
    have ho' := step_ordered hl ho e hs
    exact ⟨step_linked hl e ho ho', ho'⟩
  · intro h
    exact ((always_linked h).and h).imp fun s ⟨hl, ho⟩ => hl.splaySound ho

/-- A tunnel talks to the port of an FTP data connection of another one of its
    own connections, and that connection's server has the higher address. -/
def ftpDataRun : List Event :=
  [.bootDone false,
    .natin plainEnv 5 true true ⟨.tcp, 10, 40, 2000, 80, 40, false, none, true⟩,
    .natin plainEnv 5 true true
      ⟨.tcp, 10, 50, 1000, PORTFTP, 40, false, some 2000, true⟩]

/-- The wildcard entry of the FTP data connection and the entry of the other
    connection are each before the other one. -/
theorem ftpData_disorder :
    ¬ Always {} SplaySound (start (bootPools {} [.addPool 7]) 0 0 0) ftpDataRun := by
  intro h
  have hanti : ∀ a ∈ (run {} (start (bootPools {} [.addPool 7]) 0 0 0) ftpDataRun).nats.splay
      (1, .tcp), ∀ b ∈ (run {} (start (bootPools {} [.addPool 7]) 0 0 0) ftpDataRun).nats.splay
      (1, .tcp), (natSplayCompareAbs b a).sign = -(natSplayCompareAbs a b).sign :=
    (h.last.total (1, .tcp)).antisymm
  revert hanti
  decide +kernel

end WanStack.Aftr
