/-
# ObConnector.LoadBalance.Affinity -- SERVERAFFINITY picks in proportion to the weights.

The loop of SERVERAFFINITY takes the weights off a random number between one and their sum, until
nothing is left. An entry is picked exactly by the numbers of one interval, which is as long as its
weight and starts behind the weights in front of it (`pickByWeight_interval`). Hence of the residues of
the random number every WHITE entry gets as many as it weighs (`affinity_proportional`).
-/
import Mathlib.Data.Set.Card
import Mathlib.Order.Interval.Finset.Nat
import ObConnector.LoadBalance.Live

namespace ObConnector.LoadBalance

open Lib List

/-! ## The loop -/

/-- The weight of an entry as a number. -/
def weightOf (x : ObLbAddress × Nat) : Nat := x.1.weight.toInt.toNat

/-- A number that the weights use up stops at the first entry that uses it up. -/
theorem pickByWeight_cons {x : ObLbAddress × Nat} {rest : List (ObLbAddress × Nat)} {n : Nat}
    (hx : 0 < weightOf x) (hn : n ≤ weightOf x + (rest.map weightOf).sum) :
    pickByWeight n (x :: rest) = if n ≤ weightOf x then .ok (some x.2) else pickByWeight (n - weightOf x : Nat) rest := by
  obtain ⟨a, i⟩ := x
  have hweight := Int32.toInt_lt a.weight
  rw [weightOf] at hx hn ⊢
  dsimp only at hx hn
  rw [pickByWeight, if_neg (by omega)]
  by_cases hle : n ≤ a.weight.toInt.toNat
  · rw [if_pos hle, if_pos (.inr (by omega))]
  have hrest : rest ≠ [] := by
    rintro rfl
    rw [map_nil, sum_nil] at hn
    omega
  have hleft : n - a.weight.toInt = (n - a.weight.toInt.toNat : Nat) := by omega
  rw [if_neg hle, if_neg (not_or.2 ⟨hrest, by omega⟩), hleft]

/-- **An entry is picked by the numbers of an interval**, as long as its weight. -/
theorem pickByWeight_interval {idxarr : List (ObLbAddress × Nat)} (hpos : ∀ x ∈ idxarr, 0 < weightOf x)
    (hnodup : (idxarr.map Prod.snd).Nodup) {x : ObLbAddress × Nat} (hx : x ∈ idxarr) :
    ∃ start, start + weightOf x ≤ (idxarr.map weightOf).sum ∧ ∀ n, 1 ≤ n → n ≤ (idxarr.map weightOf).sum →
      (pickByWeight n idxarr = .ok (some x.2) ↔ start < n ∧ n ≤ start + weightOf x) := by
  induction idxarr with
  | nil => exact absurd hx not_mem_nil
  | cons y rest ih =>
    rw [map_cons, nodup_cons] at hnodup
    have hrest : ∀ z ∈ rest, 0 < weightOf z := fun z hz => hpos z (mem_cons_of_mem _ hz)
    have hy := hpos y mem_cons_self
    rw [map_cons, sum_cons]
    rcases mem_cons.1 hx with rfl | hx
    · refine ⟨0, by omega, ?_⟩
      intro n hone hn
      rw [pickByWeight_cons hy hn]
      split
      · exact iff_of_true rfl (by omega)
      -- a number that is left over leads to an entry behind, and no two have one index
      refine iff_of_false ?_ (by omega)
      intro hpick
      have hne : rest ≠ [] := by
        rintro rfl
        cases hpick
      obtain ⟨z, hz, hz'⟩ := @pickByWeight_of_pos rest (n - weightOf x : Nat) hne (by omega)
      rw [hz', Except.ok.injEq, Option.some.injEq] at hpick
      exact hnodup.1 (hpick ▸ mem_map_of_mem hz)
    obtain ⟨start, hstart, hiff⟩ := ih hrest hnodup.2 hx
    have hne : y.2 ≠ x.2 := fun h => hnodup.1 (h ▸ mem_map_of_mem hx)
    refine ⟨weightOf y + start, by omega, ?_⟩
    intro n hone hn
    rw [pickByWeight_cons hy hn]
    split
    · refine iff_of_false ?_ (by omega)
      rw [Except.ok.injEq, Option.some.injEq]
      exact hne
    rw [hiff _ (by omega) (by omega)]
    omega

/-! ## The choice -/

/-- The index of the address that is picked. -/
def picked (env : Env) (l : ObLbAddressList) (w : World) : Option Nat :=
  (getObAddressByAddressList env l w).toOption.bind Prod.fst

theorem picked_eq (env : Env) (l : ObLbAddressList) (w : World) :
    picked env l w = (pickAddress env (corrected l) w).toOption.bind Prod.fst := by
  unfold picked getObAddressByAddressList corrected
  cases pickAddress env { l with addArr := l.addArr.map fixWeight } w with
  | error e => rfl
  | ok r =>
    obtain ⟨rst, l', w'⟩ := r
    cases rst <;> rfl

theorem join_toOption_eq_some {r : Except Fault (Option Nat)} {i : Nat} :
    r.toOption.join = some i ↔ r = .ok (some i) := by
  cases r with
  | error e => simp [Except.toOption]
  | ok o => simp [Except.toOption]

theorem nodup_whites (addArr : List ObLbAddress) : ((whites addArr).map Prod.snd).Nodup := by
  refine List.Nodup.sublist (filter_sublist.map Prod.snd) ?_
  rw [zipIdx_map_snd]
  exact nodup_range'

/-- Positive weights are not corrected. -/
theorem whites_corrected {l : ObLbAddressList} (hpos : ∀ x ∈ whites l.addArr, 0 < weightOf x) :
    whites (corrected l).addArr = whites l.addArr := by
  have hmap : whites (corrected l).addArr = (whites l.addArr).map (Prod.map fixWeight id) := by
    rw [whites, corrected, zipIdx_map, filter_map]
    congr 1
    apply filter_congr
    intro x _
    simp
  rw [hmap]
  refine (map_congr_left ?_).trans (map_id _)
  intro x hx
  have hweight := hpos x hx
  have hnot : ¬x.1.weight ≤ 0 := by
    rw [Int32.le_iff_toInt_le, Int32.toInt_zero]
    unfold weightOf at hweight
    omega
  exact Prod.ext (if_neg hnot) rfl

section Affinity

variable {l : ObLbAddressList} {total : Nat} (hoption : l.option = .serverAffinity)
  (hmany : 2 ≤ (whites l.addArr).length) (hpos : ∀ x ∈ whites l.addArr, 0 < weightOf x)
  (htotal : ((whites l.addArr).map weightOf).sum = total) (hsum : total < 2 ^ 31)

include hmany hpos htotal in
theorem total_pos : 0 < total := by
  obtain ⟨x, hx⟩ := exists_mem_of_ne_nil (whites l.addArr) (by rintro h; simp [h] at hmany)
  have hmem : weightOf x ∈ (whites l.addArr).map weightOf := mem_map_of_mem hx
  have hle := single_le_sum (fun _ _ => Nat.zero_le _) _ hmem
  have := hpos x hx
  omega

include hoption hmany hpos htotal hsum

/-- The loop decides, with the residue of the random number and one more. -/
theorem picked_affinity (env : Env) (w : World) : picked env l w =
      (pickByWeight (env.rand w.rands % total + 1 : Nat) (whites l.addArr)).toOption.join := by
  have htpos := total_pos hmany hpos htotal
  have hweight : weightSum (whites l.addArr) = total := by
    exact (congrArg (· % 2 ^ 32) htotal).trans (Nat.mod_eq_of_lt (by omega))
  have hlt := Nat.mod_lt (env.rand w.rands) htpos
  have hnumber := @serverAffinityNumber_eq (env.rand w.rands) total (by omega) (by omega)
  have hchoice : pickAddress env (corrected l) w = pickByOption env (corrected l) w := by
    rw [pickAddress, whites_corrected hpos]
    rcases hw : whites l.addArr with _ | ⟨_, _ | _⟩
    · simp [hw] at hmany
    · simp [hw] at hmany
    rfl
  have hopt : (corrected l).option = .serverAffinity := hoption
  rw [picked_eq, hchoice]
  simp only [pickByOption, hopt, whites_corrected hpos, hweight, hnumber, ok_bind]
  cases pickByWeight (env.rand w.rands % total + 1 : Nat) (whites l.addArr) <;> rfl

/-- **SERVERAFFINITY picks in proportion to the weights**: of the residues of the random number modulo
the sum of the weights, each WHITE entry gets as many as it weighs. An entry that is not WHITE is never
picked. -/
theorem affinity_proportional (w : World) {i : Nat} {a : ObLbAddress} (hget : l.addArr[i]? = some a) :
    (a.state = .white →
      {r | r < total ∧ ∀ env : Env, env.rand w.rands % total = r → picked env l w = some i}.ncard =
        a.weight.toInt.toNat) ∧
    (a.state ≠ .white → ∀ env : Env, picked env l w ≠ some i) := by
  have hpicked := picked_affinity hoption hmany hpos htotal hsum
  constructor
  · intro hwhite
    obtain ⟨start, hstart, hiff⟩ :=
      pickByWeight_interval hpos (nodup_whites l.addArr) (mem_whites.2 ⟨hget, hwhite⟩)
    have hset : {r | r < total ∧ ∀ env, env.rand w.rands % total = r → picked env l w = some i} =
        Finset.Ico start (start + weightOf (a, i)) := by
      ext r
      rw [Finset.coe_Ico, Set.mem_Ico]
      constructor
      · rintro ⟨hr, hall⟩
        -- the residue itself as the random number
        have hpick := hall ⟨fun _ => 0, fun _ _ _ => le_refl 0, fun _ => r, fun _ => by omega, fun _ => .connected⟩
        rw [hpicked, join_toOption_eq_some] at hpick
        rw [Nat.mod_eq_of_lt hr, hiff (r + 1) (by omega) (by omega)] at hpick
        omega
      · rintro ⟨hlow, hhigh⟩
        refine ⟨by omega, ?_⟩
        intro env henv
        rw [hpicked, join_toOption_eq_some, henv, hiff (r + 1) (by omega) (by omega)]
        omega
    rw [hset, Set.ncard_coe_finset, Nat.card_Ico, Nat.add_sub_cancel_left]
    rfl
  · intro hstate env hpick
    have hne : whites l.addArr ≠ [] := by
      rintro h
      simp [h] at hmany
    rw [hpicked, join_toOption_eq_some] at hpick
    obtain ⟨x, hx, hx'⟩ := pickByWeight_of_pos hne (show 1 ≤ ((env.rand w.rands % total + 1 : Nat) : Int) by omega)
    rw [hx', Except.ok.injEq, Option.some.injEq] at hpick
    obtain ⟨hget', hwhite⟩ := mem_whites.1 hx
    rw [hpick, hget, Option.some.injEq] at hget'
    exact hstate (hget' ▸ hwhite)

end Affinity

/-- Two servers, of weights one and three, and one that is BLACK. -/
def weighted : ObLbAddressList :=
  ⟨.serverAffinity, 0, [(1, .white), (5, .black), (3, .white)].map fun x =>
    ⟨0, [], 0, x.1, x.2, false, 0, 0, none⟩⟩

/-- The second WHITE server gets three of the four residues. -/
theorem weighted_three :
    {r | r < 4 ∧ ∀ env : Env, env.rand World.init.rands % 4 = r → picked env weighted World.init = some 2}.ncard = 3 :=
  (@affinity_proportional weighted 4 rfl (by decide) (by decide) rfl (by decide) World.init 2
    ⟨0, [], 0, 3, .white, false, 0, 0, none⟩ rfl).1 rfl

end ObConnector.LoadBalance
