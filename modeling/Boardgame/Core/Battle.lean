import Boardgame.Core.Exact

/-!
# Core.Battle

Fights with exact real strengths: how many each side loses, and how the outcome moves with the
armies.

* `battle_outcome`: the losers are lost as a whole, the winners lose their rounded share.
* `reinforcements`: who fights beside you, and where, never turns the outcome against you.
-/

namespace Boardgame

open Strength

/-- Every combatant has a positive attack value. -/
def Strong (army : List Combatant) : Prop := ∀ c ∈ army, 0 < c.attack

theorem Strong.nonneg {army : List Combatant} (h : Strong army) : ∀ c ∈ army, 0 ≤ c.attack :=
  fun c hc => (h c hc).le

theorem Strong.perm {army army' : List Combatant} (h : Strong army) (hperm : army'.Perm army) :
    Strong army' :=
  fun c hc => h c (hperm.mem_iff.mp hc)

theorem Strong.cons {army : List Combatant} {c : Combatant} (h : Strong army) (hc : 0 < c.attack) :
    Strong (c :: army) := by
  intro d hd
  rcases List.mem_cons.mp hd with rfl | hd
  · exact hc
  · exact h d hd

/-! ## Strength -/

section Strengths

variable {army army' defenders defenders' : List Combatant} {tile tile' : TileProperties}
  {structures structures' : List StructureEffect}

theorem attackSum_nonneg (h : Strong army) : 0 ≤ attackSum army :=
  List.sum_nonneg fun q hq => by
    obtain ⟨c, hc, rfl⟩ := List.mem_map.mp hq
    exact (h c hc).le

theorem attackSum_pos (h : Strong army) (hne : army ≠ []) : 0 < attackSum army :=
  List.sum_pos _ (fun q hq => by
    obtain ⟨c, hc, rfl⟩ := List.mem_map.mp hq
    exact h c hc) (by simpa using hne)

/-- Nobody has no strength, so the formula needs no exception. -/
theorem strength_formula (army : List Combatant) :
    (computeStrength army : ℝ) = attackSum army * Real.sqrt army.length := by
  rw [computeStrength_eq]
  split
  · rename_i h
    simp [h]
  · rfl

theorem defence_formula (defenders : List Combatant) (tile : TileProperties)
    (structures : List StructureEffect) :
    (defence defenders tile structures : ℝ) =
      computeStrength defenders * (tile.defenseBonus * defenseProduct structures) := by
  unfold defence
  split
  · rename_i h
    rw [h, computeStrength_eq, if_pos rfl, zero_mul]
  · rfl

theorem strength_pos (h : Strong army) (hne : army ≠ []) : (0 : ℝ) < computeStrength army := by
  rw [strength_formula]
  have hsum : (0 : ℝ) < attackSum army := by exact_mod_cast attackSum_pos h hne
  have hlen : (0 : ℝ) < army.length := by exact_mod_cast List.length_pos_iff.mpr hne
  exact mul_pos hsum (Real.sqrt_pos.mpr hlen)

theorem strength_perm (h : army'.Perm army) :
    (computeStrength army' : ℝ) = computeStrength army := by
  have hsum : attackSum army' = attackSum army := (h.map _).sum_eq
  rw [strength_formula, strength_formula, hsum, h.length_eq]

theorem attackSum_le (h : Strong army) (hsub : army'.Subperm army) :
    attackSum army' ≤ attackSum army := by
  obtain ⟨l, hperm, hsub⟩ := hsub
  rw [attackSum, ← (hperm.map _).sum_eq]
  refine (hsub.map _).sum_le_sum fun q hq => ?_
  obtain ⟨c, hc, rfl⟩ := List.mem_map.mp hq
  exact (h c hc).le

/-- A part of an army: a smaller sum, and a smaller root. -/
theorem strength_le (h : Strong army) (hsub : army'.Subperm army) :
    (computeStrength army' : ℝ) ≤ computeStrength army := by
  have hsum : (attackSum army' : ℝ) ≤ attackSum army := by exact_mod_cast attackSum_le h hsub
  have hnonneg : (0 : ℝ) ≤ attackSum army := by exact_mod_cast attackSum_nonneg h
  have hlen : (army'.length : ℝ) ≤ army.length := by exact_mod_cast hsub.length_le
  rw [strength_formula, strength_formula]
  exact mul_le_mul hsum (Real.sqrt_le_sqrt hlen) (Real.sqrt_nonneg _) hnonneg

theorem strength_lt (h : Strong army) (hsub : army'.Subperm army)
    (hlt : army'.length < army.length) :
    (computeStrength army' : ℝ) < computeStrength army := by
  obtain ⟨c, hc⟩ := hsub.exists_of_length_lt hlt
  have hsum : attackSum army' < attackSum army := by
    have hle := attackSum_le h hc
    rw [attackSum, List.map_cons, List.sum_cons] at hle
    have hpos := h c (hc.subset List.mem_cons_self)
    rw [attackSum]
    linarith
  have hsum' : (attackSum army' : ℝ) < attackSum army := by exact_mod_cast hsum
  have hnonneg : (0 : ℝ) ≤ attackSum army := by exact_mod_cast attackSum_nonneg h
  have hlen : (army'.length : ℝ) ≤ army.length := by exact_mod_cast hlt.le
  have hpos : (0 : ℝ) < army.length := by exact_mod_cast (Nat.zero_le _).trans_lt hlt
  rw [strength_formula, strength_formula]
  calc (attackSum army' : ℝ) * Real.sqrt army'.length
      ≤ attackSum army' * Real.sqrt army.length := by
        refine mul_le_mul_of_nonneg_left (Real.sqrt_le_sqrt hlen) ?_
        have hpart : Strong army' := fun d hd => h d (hsub.subset hd)
        exact_mod_cast attackSum_nonneg hpart
    _ < attackSum army * Real.sqrt army.length :=
      mul_lt_mul_of_pos_right hsum' (Real.sqrt_pos.mpr hpos)

theorem defenseProduct_pos (h : ∀ s ∈ structures, 0 < s.defenseMultiplier) :
    0 < defenseProduct structures :=
  List.prod_pos fun q hq => by
    obtain ⟨s, hs, rfl⟩ := List.mem_map.mp hq
    exact h s hs

theorem defenseProduct_mono {s : StructureEffect} (h : ∀ x ∈ structures, 0 < x.defenseMultiplier)
    (hs : 1 ≤ s.defenseMultiplier) (hperm : structures'.Perm (s :: structures)) :
    defenseProduct structures ≤ defenseProduct structures' := by
  have hprod : defenseProduct structures' = s.defenseMultiplier * defenseProduct structures := by
    rw [defenseProduct, (hperm.map _).prod_eq, List.map_cons, List.prod_cons, defenseProduct]
  rw [hprod]
  exact le_mul_of_one_le_left (defenseProduct_pos h).le hs

theorem defence_pos (h : Strong defenders) (hne : defenders ≠ []) (hbonus : 0 < tile.defenseBonus)
    (hstr : ∀ s ∈ structures, 0 < s.defenseMultiplier) :
    (0 : ℝ) < defence defenders tile structures := by
  rw [defence_formula]
  have hprod : (0 : ℝ) < defenseProduct structures := by exact_mod_cast defenseProduct_pos hstr
  have hb : (0 : ℝ) < tile.defenseBonus := by exact_mod_cast hbonus
  exact mul_pos (strength_pos h hne) (mul_pos hb hprod)

theorem defence_perm (h : defenders'.Perm defenders) :
    (defence defenders' tile structures : ℝ) = defence defenders tile structures := by
  rw [defence_formula, defence_formula, strength_perm h]

/-- A defence is no weaker with at least the fighters, the ground and the walls of another. -/
theorem defence_mono (h : Strong defenders) (hbonus : 0 < tile.defenseBonus)
    (hstr : ∀ s ∈ structures, 0 < s.defenseMultiplier)
    (hdef : (computeStrength defenders : ℝ) ≤ computeStrength defenders')
    (htile : tile.defenseBonus ≤ tile'.defenseBonus)
    (hwalls : defenseProduct structures ≤ defenseProduct structures') :
    (defence defenders tile structures : ℝ) ≤ defence defenders' tile' structures' := by
  have hzero : (0 : ℝ) ≤ computeStrength defenders := computeStrength_nonneg h.nonneg
  have hprod := defenseProduct_pos hstr
  have hmult : tile.defenseBonus * defenseProduct structures ≤
      tile'.defenseBonus * defenseProduct structures' :=
    mul_le_mul htile hwalls hprod.le (hbonus.le.trans htile)
  have hmult' : (tile.defenseBonus : ℝ) * defenseProduct structures ≤
      tile'.defenseBonus * defenseProduct structures' := by exact_mod_cast hmult
  have hpos : (0 : ℝ) ≤ tile.defenseBonus * defenseProduct structures := by
    exact_mod_cast (mul_pos hbonus hprod).le
  rw [defence_formula, defence_formula]
  exact mul_le_mul hdef hmult' hpos (hzero.trans hdef)

end Strengths

/-! ## Fights -/

section Fights

variable {G : Type} {rng : Option (CombatRng G)} {attackers defenders : List Combatant}
  {tile : TileProperties} {structures : List StructureEffect}

/-- The fight, with this generator in this state, reports `res`. -/
def Reports (rng : Option (CombatRng G)) (g : G) (attackers defenders : List Combatant)
    (tile : TileProperties) (structures : List StructureEffect) (res : CombatResult ℝ) : Prop :=
  ∃ g', (resolveAttack attackers defenders tile structures rng).run g = .ok res g'

/-- What a report says, in terms of the strengths. -/
structure Fought (attackers defenders : List Combatant) (tile : TileProperties)
    (structures : List StructureEffect) (res : CombatResult ℝ) : Prop where
  attackerStrength : res.attackerStrength = computeStrength attackers
  defenderStrength : res.defenderStrength = defence defenders tile structures
  wins : res.attackerWins = decide (defenders = [] ∨ res.defenderStrength < res.attackerStrength)
  share : (((if res.attackerWins then res.attackerLosses else res.defenderLosses).length : ℕ) : ℤ) =
    winnerLosses attackers.length defenders.length res.attackerStrength res.defenderStrength
  attackerLosses : res.attackerLosses.Subperm (attackers.map Combatant.id)
  defenderLosses : res.defenderLosses.Subperm (defenders.map Combatant.id)
  won : res.attackerWins = true → res.defenderLosses = defenders.map Combatant.id
  held : res.attackerWins = false → res.attackerLosses = attackers.map Combatant.id

theorem fight_reports (hrng : ∀ r ∈ rng, InRange r) (hatt : Strong attackers)
    (hdef : Strong defenders) (hbonus : 0 < tile.defenseBonus)
    (hstr : ∀ s ∈ structures, 0 < s.defenseMultiplier) (g : G) :
    ∃ res, Reports rng g attackers defenders tile structures res ∧
      Fought attackers defenders tile structures res := by
  obtain ⟨res, g', hrun, -, ha, hd, hwon, hheld⟩ :=
    resolveAttack_spec (R := ℝ) hrng attackers defenders tile structures g
  obtain ⟨has, hds, hwins, hshare⟩ := resolveAttack_report hrng hatt.nonneg hdef.nonneg hbonus.le
    (fun s hs => (hstr s hs).le) hrun
  refine ⟨res, ⟨g', hrun⟩, has, hds, ?_, ?_, ha, hd, hwon, hheld⟩
  · rw [hwins, has, hds]
  · rw [hshare, has, hds]

variable {res : CombatResult ℝ}

/-- A part `c` of the winners, by the ratio of the strengths, is at most that part of them. -/
theorem share_le {n : ℕ} {a b c : ℝ} (hb : 0 ≤ b) (hba : b ≤ a) (hc : 0 ≤ c) :
    ((⌊(n : ℝ) * (b / a) * c⌋ : ℤ) : ℝ) ≤ n * c := by
  have hratio : b / a ≤ 1 := div_le_one_of_le₀ hba (hb.trans hba)
  have hn : (0 : ℝ) ≤ n := Nat.cast_nonneg n
  calc ((⌊(n : ℝ) * (b / a) * c⌋ : ℤ) : ℝ) ≤ n * (b / a) * c := Int.floor_le _
    _ ≤ n * 1 * c := by gcongr
    _ = n * c := by rw [mul_one]

theorem half_of {n k : ℕ} {c : ℝ} (hk : (k : ℝ) ≤ n * c) (hc : c ≤ 1 / 2) : 2 * k ≤ n := by
  have hn : (0 : ℝ) ≤ n := Nat.cast_nonneg n
  have hhalf : (2 : ℝ) * k ≤ n := by nlinarith
  exact_mod_cast hhalf

/-- The losses of a fight. -/
structure Outcome (attackers defenders : List Combatant) (res : CombatResult ℝ) : Prop where
  /-- The winner's strength, by which the branch of a defended tile divides. -/
  divisor : defenders ≠ [] →
    0 < if res.attackerWins then res.attackerStrength else res.defenderStrength
  won : res.attackerWins = true → res.defenderLosses = defenders.map Combatant.id
  held : res.attackerWins = false → res.attackerLosses = attackers.map Combatant.id
  attackerLosses : res.attackerLosses.Nodup ∧
    ∀ id ∈ res.attackerLosses, id ∈ attackers.map Combatant.id
  defenderLosses : res.defenderLosses.Nodup ∧
    ∀ id ∈ res.defenderLosses, id ∈ defenders.map Combatant.id
  attackerShare : res.attackerWins = true → (res.attackerLosses.length : ℤ) =
    ⌊(attackers.length : ℝ) * (res.defenderStrength / res.attackerStrength) * (1 / 2)⌋
  defenderShare : res.attackerWins = false → (res.defenderLosses.length : ℤ) =
    ⌊(defenders.length : ℝ) * (res.attackerStrength / res.defenderStrength) * (2 / 5)⌋
  attackerHalf : res.attackerWins = true → 2 * res.attackerLosses.length ≤ attackers.length
  defenderHalf : res.attackerWins = false → 2 * res.defenderLosses.length ≤ defenders.length

/-- A winner that had anyone keeps someone. -/
theorem Outcome.survivor (h : Outcome attackers defenders res) :
    (res.attackerWins = true → attackers ≠ [] → res.attackerLosses.length < attackers.length) ∧
      (res.attackerWins = false → defenders ≠ [] →
        res.defenderLosses.length < defenders.length) := by
  constructor
  · intro hwin hne
    have hhalf := h.attackerHalf hwin
    have hpos := List.length_pos_iff.mpr hne
    omega
  · intro hlose hne
    have hhalf := h.defenderHalf hlose
    have hpos := List.length_pos_iff.mpr hne
    omega

theorem Fought.attacker_share (h : Fought attackers defenders tile structures res)
    (hwin : res.attackerWins = true) :
    (res.attackerLosses.length : ℤ) =
      ⌊(attackers.length : ℝ) * (res.defenderStrength / res.attackerStrength) * (1 / 2)⌋ := by
  have hshare := h.share
  have hcause := h.wins
  rw [hwin, if_pos rfl, winnerLosses] at hshare
  rw [hwin, eq_comm, decide_eq_true_iff] at hcause
  rw [hshare]
  split_ifs with hnone hlt
  · rw [List.length_eq_zero_iff] at hnone
    rw [h.defenderStrength, defence, if_pos hnone]
    simp
  · rfl
  · rcases hcause with rfl | hlt'
    · exact absurd List.length_nil hnone
    · exact absurd hlt' hlt

theorem Fought.defended (h : Fought attackers defenders tile structures res)
    (hlose : res.attackerWins = false) :
    defenders ≠ [] ∧ res.attackerStrength ≤ res.defenderStrength := by
  have hcause := h.wins
  rw [hlose, eq_comm, decide_eq_false_iff_not, not_or, not_lt] at hcause
  exact hcause

theorem Fought.defender_share (h : Fought attackers defenders tile structures res)
    (hlose : res.attackerWins = false) :
    (res.defenderLosses.length : ℤ) =
      ⌊(defenders.length : ℝ) * (res.attackerStrength / res.defenderStrength) * (2 / 5)⌋ := by
  obtain ⟨hne, hle⟩ := h.defended hlose
  have hshare := h.share
  rw [hlose, if_neg Bool.false_ne_true, winnerLosses, if_neg fun h0 =>
    hne (List.length_eq_zero_iff.mp h0),
    if_neg hle.not_gt] at hshare
  exact hshare

theorem Fought.outcome (h : Fought attackers defenders tile structures res)
    (hatt : Strong attackers) (hdef : Strong defenders) (hbonus : 0 < tile.defenseBonus)
    (hstr : ∀ s ∈ structures, 0 < s.defenseMultiplier) (hnd : (attackers.map Combatant.id).Nodup)
    (hnd' : (defenders.map Combatant.id).Nodup) :
    Outcome attackers defenders res := by
  have ha : 0 ≤ res.attackerStrength := by
    rw [h.attackerStrength]
    exact computeStrength_nonneg hatt.nonneg
  have hd : defenders ≠ [] → 0 < res.defenderStrength := fun hne => by
    rw [h.defenderStrength]
    exact defence_pos hdef hne hbonus hstr
  have hwin : res.attackerWins = true → defenders ≠ [] →
      res.defenderStrength < res.attackerStrength :=
    fun hw hne => by
      have hcause := h.wins
      rw [hw, eq_comm, decide_eq_true_iff] at hcause
      exact hcause.resolve_left hne
  refine
    { divisor := fun hne => ?_
      won := h.won
      held := h.held
      attackerLosses := ⟨nodup_of_subperm h.attackerLosses hnd, h.attackerLosses.subset⟩
      defenderLosses := ⟨nodup_of_subperm h.defenderLosses hnd', h.defenderLosses.subset⟩
      attackerShare := h.attacker_share
      defenderShare := h.defender_share
      attackerHalf := fun hw => ?_
      defenderHalf := fun hl => ?_ }
  · split
    · rename_i hw
      exact (hd hne).trans (hwin hw hne)
    · exact hd hne
  · have hshare := h.attacker_share hw
    by_cases hne : defenders = []
    · have hzero : res.defenderStrength = 0 := by rw [h.defenderStrength, defence, if_pos hne]
      rw [hzero] at hshare
      simp only [zero_div, mul_zero, zero_mul, Int.floor_zero] at hshare
      omega
    · have hle := share_le (n := attackers.length) (c := 1 / 2) (hd hne).le (hwin hw hne).le
        (by norm_num)
      rw [← hshare] at hle
      exact half_of (by exact_mod_cast hle) le_rfl
  · have hle := share_le (n := defenders.length) (c := 2 / 5) ha (h.defended hl).2 (by norm_num)
    rw [← h.defender_share hl] at hle
    exact half_of (by exact_mod_cast hle) (by norm_num)

/-- **The outcome of a battle**, for every generator that keeps to its ranges, or none. -/
theorem battle_outcome (hrng : ∀ r ∈ rng, InRange r) (hatt : Strong attackers)
    (hdef : Strong defenders) (hbonus : 0 < tile.defenseBonus)
    (hstr : ∀ s ∈ structures, 0 < s.defenseMultiplier) (hnd : (attackers.map Combatant.id).Nodup)
    (hnd' : (defenders.map Combatant.id).Nodup) (g : G) :
    ∃ res, Reports rng g attackers defenders tile structures res ∧ Outcome attackers defenders res ∧
      res.attackerStrength = attackSum attackers * Real.sqrt attackers.length ∧
      res.defenderStrength = attackSum defenders * Real.sqrt defenders.length *
        (tile.defenseBonus * defenseProduct structures) ∧
      (res.attackerWins = true ↔ defenders = [] ∨ res.defenderStrength < res.attackerStrength) ∧
      (res.attackerWins = true → attackers ≠ [] → res.attackerLosses.length < attackers.length) ∧
      (res.attackerWins = false → defenders ≠ [] →
        res.defenderLosses.length < defenders.length) := by
  obtain ⟨res, hrep, h⟩ := fight_reports hrng hatt hdef hbonus hstr g
  have hout := h.outcome hatt hdef hbonus hstr hnd hnd'
  refine ⟨res, hrep, hout, ?_, ?_, ?_, hout.survivor⟩
  · rw [h.attackerStrength, strength_formula]
  · rw [h.defenderStrength, defence_formula, strength_formula]
  · rw [h.wins, decide_eq_true_iff]

/-- Two spearmen against one behind a wall. -/
theorem battle_outcome_wall :
    ∃ res, Reports (some SeededRandom.draw) ⟨1#32⟩ [⟨"a", "spearman", 2⟩, ⟨"b", "spearman", 2⟩]
        [⟨"c", "spearman", 2⟩] ⟨3 / 2⟩ [⟨2⟩] res ∧
      Outcome [⟨"a", "spearman", 2⟩, ⟨"b", "spearman", 2⟩] [⟨"c", "spearman", 2⟩] res :=
  have ⟨res, hrep, hout, _⟩ := @battle_outcome SeededRandom (some SeededRandom.draw)
    [⟨"a", "spearman", 2⟩, ⟨"b", "spearman", 2⟩] [⟨"c", "spearman", 2⟩] ⟨3 / 2⟩
    [⟨2⟩] some_draw_inRange
    (by simp [Strong]) (by simp [Strong]) (by norm_num) (by simp) (by decide) (by decide) ⟨1#32⟩
  ⟨res, hrep, hout⟩

/-! ## Reinforcements -/

variable {attackers' defenders' : List Combatant} {tile' : TileProperties}
  {structures' : List StructureEffect} {res' : CombatResult ℝ}

/-- The attacker still wins if they are no weaker and the defence no stronger. -/
theorem Fought.wins_mono (h : Fought attackers defenders tile structures res)
    (h' : Fought attackers' defenders' tile' structures' res') (hne : defenders = [] →
      defenders' = [])
    (ha : res.attackerStrength ≤ res'.attackerStrength)
    (hd : res'.defenderStrength ≤ res.defenderStrength) (hwin : res.attackerWins = true) :
    res'.attackerWins = true := by
  have hcause := h.wins
  rw [hwin, eq_comm, decide_eq_true_iff] at hcause
  rw [h'.wins, decide_eq_true_iff]
  rcases hcause with hcause | hcause
  · exact .inl (hne hcause)
  · exact .inr (hd.trans_lt (hcause.trans_le ha))

theorem Fought.loses_mono (h : Fought attackers defenders tile structures res)
    (h' : Fought attackers defenders' tile' structures' res') (hne : defenders' = [] →
      defenders = [])
    (hd : (defence defenders tile structures : ℝ) ≤ defence defenders' tile' structures')
    (hlose : res.attackerWins = false) : res'.attackerWins = false := by
  rw [← Bool.not_eq_true] at hlose ⊢
  refine fun hwin => hlose (h'.wins_mono h hne ?_ ?_ hwin)
  · rw [h'.attackerStrength, h.attackerStrength]
  · rw [h.defenderStrength, h'.defenderStrength]
    exact hd

/-- The number of casualties on each side. -/
theorem Fought.casualties (h : Fought attackers defenders tile structures res) :
    (res.attackerLosses.length : ℤ) = (if res.attackerWins then
      winnerLosses attackers.length defenders.length res.attackerStrength res.defenderStrength
        else attackers.length) ∧
    (res.defenderLosses.length : ℤ) = (if res.attackerWins then (defenders.length : ℤ) else
      winnerLosses attackers.length defenders.length res.attackerStrength
        res.defenderStrength) := by
  have hshare := h.share
  cases hwin : res.attackerWins with
  | true =>
    rw [hwin] at hshare
    exact ⟨hshare, by rw [h.won hwin, List.length_map]; rfl⟩
  | false =>
    rw [hwin] at hshare
    exact ⟨by rw [h.held hwin, List.length_map]; rfl, hshare⟩

/-- What a report counts: the winner, the strengths and the casualties. -/
def SameCounts (res res' : CombatResult ℝ) : Prop :=
  res'.attackerWins = res.attackerWins ∧ res'.attackerStrength = res.attackerStrength ∧
    res'.defenderStrength = res.defenderStrength ∧
    res'.attackerLosses.length = res.attackerLosses.length ∧
    res'.defenderLosses.length = res.defenderLosses.length

theorem Fought.same (h : Fought attackers defenders tile structures res)
    (h' : Fought attackers' defenders' tile structures res') (ha : attackers'.Perm attackers)
    (hd : defenders'.Perm defenders) : SameCounts res res' := by
  have has : res'.attackerStrength = res.attackerStrength := by
    rw [h'.attackerStrength, h.attackerStrength, strength_perm ha]
  have hds : res'.defenderStrength = res.defenderStrength := by
    rw [h'.defenderStrength, h.defenderStrength, defence_perm hd]
  have hnil : defenders' = [] ↔ defenders = [] := by
    rw [← List.length_eq_zero_iff, hd.length_eq, List.length_eq_zero_iff]
  have hwins : res'.attackerWins = res.attackerWins := by
    rw [h'.wins, h.wins, has, hds]
    exact decide_eq_decide.mpr (or_congr_left hnil)
  obtain ⟨hla, hld⟩ := h.casualties
  obtain ⟨hla', hld'⟩ := h'.casualties
  rw [hwins, has, hds, ha.length_eq, hd.length_eq] at hla' hld'
  exact ⟨hwins, has,
    hds, by exact_mod_cast hla'.trans hla.symm, by exact_mod_cast hld'.trans hld.symm⟩

theorem joined {army army' : List Combatant} {c : Combatant} (h : army'.Perm (c :: army)) :
    army.Subperm army' :=
  (List.sublist_cons_self c army).subperm.trans h.symm.subperm

/-- **Reinforcements never hurt**: one more attacker keeps a won fight won; one more defender, a
better tile or a wall keeps a lost fight lost; and neither the order of an army nor the generator
changes who wins, how strong the sides are and how many fall. -/
theorem reinforcements {G' : Type} {rng' : Option (CombatRng G')} (hrng : ∀ r ∈ rng, InRange r)
    (hrng' : ∀ r ∈ rng', InRange r) (hatt : Strong attackers) (hdef : Strong defenders)
    (hbonus : 0 < tile.defenseBonus) (hstr : ∀ s ∈ structures, 0 < s.defenseMultiplier)
    (g : G) (g' : G') :
    ∃ res, Reports rng g attackers defenders tile structures res ∧
      (∀ a attackers', 0 < a.attack → attackers'.Perm (a :: attackers) →
        ∃ res', Reports rng' g' attackers' defenders tile structures res' ∧
          (res.attackerWins = true → res'.attackerWins = true)) ∧
      (∀ d defenders', 0 < d.attack → defenders'.Perm (d :: defenders) →
        ∃ res', Reports rng' g' attackers defenders' tile structures res' ∧
          (res.attackerWins = false → res'.attackerWins = false)) ∧
      (∀ tile' : TileProperties, tile.defenseBonus ≤ tile'.defenseBonus →
        ∃ res', Reports rng' g' attackers defenders tile' structures res' ∧
          (res.attackerWins = false → res'.attackerWins = false)) ∧
      (∀ s structures', 1 ≤ s.defenseMultiplier → structures'.Perm (s :: structures) →
        ∃ res', Reports rng' g' attackers defenders tile structures' res' ∧
          (res.attackerWins = false → res'.attackerWins = false)) ∧
      (∀ attackers' defenders', attackers'.Perm attackers → defenders'.Perm defenders →
        ∃ res', Reports rng' g' attackers' defenders' tile structures res' ∧
          SameCounts res res') := by
  obtain ⟨res, hrep, h⟩ := fight_reports hrng hatt hdef hbonus hstr g
  refine ⟨res, hrep, ?_, ?_, ?_, ?_, ?_⟩
  · intro a attackers' ha hperm
    obtain ⟨res', hrep', h'⟩ := fight_reports hrng' ((hatt.cons ha).perm hperm) hdef hbonus hstr g'
    refine ⟨res', hrep', h.wins_mono h' id ?_ ?_⟩
    · rw [h.attackerStrength, h'.attackerStrength]
      exact strength_le ((hatt.cons ha).perm hperm) (joined hperm)
    · rw [h.defenderStrength, h'.defenderStrength]
  · intro d defenders' hd hperm
    obtain ⟨res', hrep', h'⟩ := fight_reports hrng' hatt ((hdef.cons hd).perm hperm) hbonus hstr g'
    refine ⟨res', hrep', h.loses_mono h' ?_ ?_⟩
    · rintro rfl
      exact absurd hperm.length_eq (by simp)
    · exact defence_mono hdef hbonus hstr (strength_le ((hdef.cons hd).perm hperm) (joined hperm))
        le_rfl le_rfl
  · intro tile' htile
    obtain ⟨res', hrep', h'⟩ := fight_reports hrng' hatt hdef (hbonus.trans_le htile) hstr g'
    exact ⟨res', hrep', h.loses_mono h' id (defence_mono hdef hbonus hstr le_rfl htile le_rfl)⟩
  · intro s structures' hs hperm
    have hstr' : ∀ x ∈ structures', 0 < x.defenseMultiplier := fun x hx => by
      rcases List.mem_cons.mp (hperm.mem_iff.mp hx) with rfl | hx
      · exact one_pos.trans_le hs
      · exact hstr x hx
    obtain ⟨res', hrep', h'⟩ := fight_reports hrng' hatt hdef hbonus hstr' g'
    refine ⟨res', hrep', h.loses_mono h' id (defence_mono hdef hbonus hstr le_rfl le_rfl ?_)⟩
    exact defenseProduct_mono hstr hs hperm
  · intro attackers' defenders' ha hd
    obtain ⟨res', hrep', h'⟩ := fight_reports hrng' (hatt.perm ha) (hdef.perm hd) hbonus hstr g'
    exact ⟨res', hrep', h.same h' ha hd⟩

/-- An even fight is lost, and still lost with the defender behind a wall. -/
theorem reinforcements_wall :
    ∃ res, Reports (none : Option (CombatRng Unit)) () [⟨"a", "spearman", 2⟩] [⟨"c", "spearman", 2⟩]
      ⟨1⟩ [] res ∧
      ∃ res', Reports (some SeededRandom.draw) ⟨1#32⟩ [⟨"a", "spearman", 2⟩] [⟨"c", "spearman", 2⟩]
        ⟨1⟩ [⟨2⟩] res' ∧
        (res.attackerWins = false → res'.attackerWins = false) :=
  have ⟨res, hrep, _, _, _, hwall, _⟩ :=
    @reinforcements Unit none [⟨"a", "spearman", 2⟩] [⟨"c", "spearman", 2⟩] ⟨1⟩ []
    SeededRandom (some SeededRandom.draw) (by simp) some_draw_inRange (by simp [Strong])
      (by simp [Strong]) (by norm_num) (by simp) () ⟨1#32⟩
  ⟨res, hrep, hwall ⟨2⟩ [⟨2⟩] (by norm_num) (.refl _)⟩

end Fights

end Boardgame
