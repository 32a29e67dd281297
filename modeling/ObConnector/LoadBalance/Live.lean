/-
# ObConnector.LoadBalance.Live -- when the choice finds a WHITE address.

The choice among addresses is for finding one that is alive: when an entry is WHITE it should return a
WHITE entry, and nothing otherwise (`FindsLive`). The theorem `findsLive_iff_selectable` says for every
list, every counter and every random number when it does so. One WHITE entry is always found, and
RANDOM always finds one of several. Two strategies fail at times.

* ROTATION scans from `rotation_flag % count` to the end of the list and does not go round: WHITE
  entries that stand in front of the start are missed.
* SERVERAFFINITY adds the weights up in an `unsigned int`. A sum that wraps round to zero is a division
  by zero, and a random number just below the limit of `int` overflows in the first subtraction.
-/
import ObConnector.LoadBalance.Connect

namespace ObConnector.LoadBalance

open Lib List

/-! ## Collecting the WHITE entries -/

/-- Entry `i` is WHITE. -/
def WhiteAt (l : ObLbAddressList) (i : Nat) : Prop :=
  ∃ a, l.addArr[i]? = some a ∧ a.state = .white

variable {i : Nat}

variable {addArr : List ObLbAddress}

theorem mem_whites {a : ObLbAddress} : (a, i) ∈ whites addArr ↔ addArr[i]? = some a ∧ a.state = .white := by
  rw [whites, mem_filter, List.mem_zipIdx_iff_getElem?]
  simp

@[simp] theorem fixWeight_state (a : ObLbAddress) : (fixWeight a).state = a.state := by
  unfold fixWeight
  split <;> rfl

/-- Behind the correction every weight is positive. -/
theorem fixWeight_pos (a : ObLbAddress) : 1 ≤ (fixWeight a).weight.toInt := by
  unfold fixWeight
  split
  · exact Int.le_refl 1
  rename_i h
  rw [Int32.le_iff_toInt_le, Int32.toInt_zero] at h
  omega

theorem getElem?_map_fixWeight {a : ObLbAddress} :
    (addArr.map fixWeight)[i]? = some a ↔ ∃ b, addArr[i]? = some b ∧ fixWeight b = a := by
  rw [List.getElem?_map, Option.map_eq_some_iff]

variable {l : ObLbAddressList}

/-- The correction of the weights leaves the WHITE entries where they are. -/
theorem whiteAt_map_fixWeight : WhiteAt { l with addArr := l.addArr.map fixWeight } i ↔ WhiteAt l i := by
  constructor
  · rintro ⟨a, ha, hwhite⟩
    obtain ⟨b, hb, rfl⟩ := getElem?_map_fixWeight.1 ha
    exact ⟨b, hb, by rwa [fixWeight_state] at hwhite⟩
  · rintro ⟨a, ha, hwhite⟩
    exact ⟨fixWeight a, getElem?_map_fixWeight.2 ⟨a, ha, rfl⟩, by rwa [fixWeight_state]⟩

variable {x : ObLbAddress × Nat}

theorem whiteAt_of_mem (h : x ∈ whites l.addArr) : WhiteAt l x.2 :=
  ⟨x.1, mem_whites.1 h⟩

/-! ## The strategies -/

/-- SERVERAFFINITY takes an entry when its random number is positive. -/
theorem pickByWeight_of_pos {idxarr : List (ObLbAddress × Nat)} {randNumber : Int}
    (hne : idxarr ≠ []) (hpos : 1 ≤ randNumber) :
    ∃ x ∈ idxarr, pickByWeight randNumber idxarr = .ok (some x.2) := by
  induction idxarr generalizing randNumber with
  | nil => exact absurd rfl hne
  | cons x rest ih =>
    obtain ⟨a, i⟩ := x
    have hweight := Int32.toInt_lt a.weight
    have hroom : ¬randNumber - a.weight.toInt < -2 ^ 31 := by omega
    rw [pickByWeight, if_neg hroom]
    by_cases hstop : rest = [] ∨ randNumber - a.weight.toInt ≤ 0
    · rw [if_pos hstop]
      exact ⟨(a, i), mem_cons_self, rfl⟩
    rw [if_neg hstop]
    obtain ⟨hrest, hleft⟩ := not_or.1 hstop
    obtain ⟨y, hy, hpick⟩ := ih hrest (show 1 ≤ randNumber - a.weight.toInt by omega)
    exact ⟨y, mem_cons_of_mem _ hy, hpick⟩

/-- The smallest `int` cannot go down by a weight. -/
theorem pickByWeight_min {idxarr : List (ObLbAddress × Nat)} (hne : idxarr ≠ [])
    (hpos : ∀ x ∈ idxarr, 1 ≤ x.1.weight.toInt) :
    pickByWeight (-2 ^ 31) idxarr = .error .intOverflow := by
  cases idxarr with
  | nil => exact absurd rfl hne
  | cons x rest =>
    have hweight := hpos x mem_cons_self
    rw [pickByWeight, if_pos (by omega)]

theorem serverAffinityNumber_eq {rand weight : Nat} (hw : weight ≠ 0) (hr : rand % weight + 1 < 2 ^ 31) :
    serverAffinityNumber rand weight = .ok ((rand % weight + 1 : Nat) : Int) := by
  rw [serverAffinityNumber, if_neg hw, Int.bmod_eq_of_le (by omega) (by omega)]

theorem serverAffinityNumber_min {rand weight : Nat} (hw : weight ≠ 0) (hrand : rand < 2 ^ 31)
    (hr : ¬rand % weight + 1 < 2 ^ 31) : serverAffinityNumber rand weight = .ok (-2 ^ 31) := by
  have hle : rand % weight ≤ rand := Nat.mod_le _ _
  have heq : rand % weight + 1 = 2 ^ 31 := by omega
  rw [serverAffinityNumber, if_neg hw, heq]
  rfl

/-- ROTATION takes the first WHITE entry that it comes to. -/
theorem rotate_fst (flag : Nat) (entries : List (ObLbAddress × Nat)) :
    (rotate flag entries).1 = (entries.find? fun x => x.1.state = .white).map Prod.snd := by
  induction entries generalizing flag with
  | nil => rfl
  | cons x rest ih =>
    obtain ⟨a, i⟩ := x
    by_cases hwhite : a.state = .white
    · rw [rotate, if_pos hwhite, List.find?_cons_of_pos (by simpa using hwhite)]
      rfl
    rw [rotate, if_neg hwhite, List.find?_cons_of_neg (by simpa using hwhite)]
    exact ih _

theorem mem_drop_zipIdx {start : Nat} {a : ObLbAddress} :
    (a, i) ∈ addArr.zipIdx.drop start ↔ start ≤ i ∧ addArr[i]? = some a := by
  simp only [mem_iff_getElem?, List.getElem?_drop, List.getElem?_zipIdx, Option.map_eq_some_iff, Prod.mk.injEq]
  constructor
  · rintro ⟨k, b, hget, rfl, rfl⟩
    exact ⟨by omega, by rwa [zero_add]⟩
  · rintro ⟨hstart, hget⟩
    refine ⟨i - start, a, ?_, rfl, ?_⟩
    · rwa [Nat.add_sub_cancel' hstart]
    · omega

/-- ROTATION finds something exactly when a WHITE entry stands at or behind its start. -/
theorem rotate_isSome_iff (flag : Nat) {start : Nat} :
    (rotate flag (l.addArr.zipIdx.drop start)).1.isSome ↔ ∃ i, start ≤ i ∧ WhiteAt l i := by
  rw [rotate_fst, Option.isSome_map, List.find?_isSome]
  constructor
  · rintro ⟨⟨a, i⟩, hmem, hwhite⟩
    obtain ⟨hstart, hget⟩ := mem_drop_zipIdx.1 hmem
    exact ⟨i, hstart, a, hget, by simpa using hwhite⟩
  · rintro ⟨i, hstart, a, hget, hwhite⟩
    exact ⟨(a, i), mem_drop_zipIdx.2 ⟨hstart, hget⟩, by simpa using hwhite⟩

theorem whiteAt_of_rotate {flag start : Nat} (h : (rotate flag (l.addArr.zipIdx.drop start)).1 = some i) :
    WhiteAt l i := by
  rw [rotate_fst, Option.map_eq_some_iff] at h
  obtain ⟨⟨a, j⟩, hfind, rfl⟩ := h
  obtain ⟨-, hget⟩ := mem_drop_zipIdx.1 (List.mem_of_find?_eq_some hfind)
  exact ⟨a, hget, by simpa using List.find?_some hfind⟩

/-! ## The choice -/

/-- The strategy of the list comes to a WHITE entry when there are several. -/
def OptionFinds (env : Env) (l : ObLbAddressList) (w : World) : Prop :=
  match l.option with
  | .random => True
  | .serverAffinity =>
    weightSum (whites l.addArr) ≠ 0 ∧ env.rand w.rands % weightSum (whites l.addArr) + 1 < 2 ^ 31
  | .rotation => ∃ i, l.rotationFlag % l.addArr.length ≤ i ∧ WhiteAt l i
  | _ => False

variable {env : Env} {w : World}

/-- A strategy that comes to an entry returns a WHITE one. -/
theorem pickByOption_of_finds (hne : whites l.addArr ≠ []) (h : OptionFinds env l w) :
    ∃ i l' w', pickByOption env l w = .ok (some i, l', w') ∧ WhiteAt l i := by
  unfold OptionFinds at h
  unfold pickByOption
  cases hoption : l.option <;> rw [hoption] at h
  case random =>
    have hlt : env.rand w.rands % (whites l.addArr).length < (whites l.addArr).length :=
      Nat.mod_lt _ (length_pos_iff.2 hne)
    simp only [List.getElem?_eq_getElem hlt]
    exact ⟨_, _, _, rfl, whiteAt_of_mem (getElem_mem hlt)⟩
  case serverAffinity =>
    have hnumber : 1 ≤ ((env.rand w.rands % weightSum (whites l.addArr) + 1 : Nat) : Int) := by
      omega
    obtain ⟨x, hx, hpick⟩ := pickByWeight_of_pos hne hnumber
    simp only [serverAffinityNumber_eq h.1 h.2, ok_bind, hpick]
    exact ⟨_, _, _, rfl, whiteAt_of_mem hx⟩
  case rotation =>
    have hsome := (rotate_isSome_iff l.rotationFlag).2 h
    dsimp only
    cases hrotate : rotate l.rotationFlag (l.addArr.zipIdx.drop (l.rotationFlag % l.addArr.length)) with
    | mk rst flag =>
      cases rst with
      | none =>
        rw [hrotate] at hsome
        cases hsome
      | some i => exact ⟨i, _, _, rfl, whiteAt_of_rotate (by rw [hrotate])⟩
  all_goals exact False.elim h

variable {l' : ObLbAddressList}

/-- A strategy that comes to no entry faults or returns nothing. -/
theorem pickByOption_of_not_finds (hne : whites l.addArr ≠ [])
    (hpos : ∀ x ∈ whites l.addArr, 1 ≤ x.1.weight.toInt) (h : ¬OptionFinds env l w) {w' : World} :
    pickByOption env l w ≠ .ok (some i, l', w') := by
  unfold OptionFinds at h
  unfold pickByOption
  cases hoption : l.option <;> rw [hoption] at h
  case random => exact absurd trivial h
  case serverAffinity =>
    dsimp only
    by_cases hw : weightSum (whites l.addArr) = 0
    · simp [serverAffinityNumber, hw]
    rw [serverAffinityNumber_min hw (env.rand_lt _) (fun hr => h ⟨hw, hr⟩), ok_bind, pickByWeight_min hne hpos]
    simp
  case rotation =>
    have hnone := mt (rotate_isSome_iff l.rotationFlag).1 h
    dsimp only
    cases hrotate : rotate l.rotationFlag (l.addArr.zipIdx.drop (l.rotationFlag % l.addArr.length)) with
    | mk rst flag =>
      cases rst with
      | none => simp
      | some i =>
        rw [hrotate] at hnone
        exact absurd rfl hnone
  all_goals simp

/-- The list as the choice sees it. -/
def corrected (l : ObLbAddressList) : ObLbAddressList := { l with addArr := l.addArr.map fixWeight }

/-- There is at most one WHITE entry, or the strategy comes to one of them. -/
def Selectable (env : Env) (l : ObLbAddressList) (w : World) : Prop :=
  (whites l.addArr).length ≤ 1 ∨ OptionFinds env (corrected l) w

/-- A WHITE entry is returned when there is one, and nothing otherwise. -/
structure FindsLive (env : Env) (l : ObLbAddressList) (w : World) : Prop where
  some_white : (∃ i, WhiteAt l i) →
    ∃ i l' w', getObAddressByAddressList env l w = .ok (some i, l', w') ∧ WhiteAt l i
  none_white : (∀ i, ¬WhiteAt l i) → ∃ l' w', getObAddressByAddressList env l w = .ok (none, l', w')

theorem whites_corrected_length (l : ObLbAddressList) :
    (whites (corrected l).addArr).length = (whites l.addArr).length := by
  simp only [whites, corrected, zipIdx_map, filter_map, length_map]
  congr 1
  apply filter_congr
  intro x _
  simp

theorem whites_corrected_pos (h : x ∈ whites (corrected l).addArr) : 1 ≤ x.1.weight.toInt := by
  obtain ⟨hget, -⟩ := mem_whites.1 h
  obtain ⟨b, -, hb⟩ := getElem?_map_fixWeight.1 hget
  rw [← hb]
  exact fixWeight_pos b

/-- No WHITE entry: nothing is picked. -/
theorem pickAddress_nil (h : whites l.addArr = []) : pickAddress env l w = .ok (none, l, w) := by
  rw [pickAddress, h]

/-- One WHITE entry: it is picked. -/
theorem pickAddress_singleton (h : whites l.addArr = [x]) : pickAddress env l w = .ok (some x.2, l, w) := by
  rw [pickAddress, h]

/-- Several WHITE entries: the strategy picks. -/
theorem pickAddress_several (h : 1 < (whites l.addArr).length) : pickAddress env l w = pickByOption env l w := by
  unfold pickAddress
  split
  · rename_i hnil
    rw [hnil] at h
    cases h
  · rename_i hone
    rw [hone] at h
    exact absurd h (lt_irrefl 1)
  · rfl

/-- What the whole function returns is what is picked. -/
theorem getObAddress_eq_some_iff : (∃ l' w', getObAddressByAddressList env l w = .ok (some i, l', w')) ↔
      ∃ l' w', pickAddress env (corrected l) w = .ok (some i, l', w') := by
  show (∃ l' w', (pickAddress env (corrected l) w >>= _) = _) ↔ _
  rcases pickAddress env (corrected l) w with e | ⟨rst, l', w'⟩
  · simp
  cases rst with
  | none => simp
  | some j =>
    simp only [ok_bind, pure_eq_ok, Except.ok.injEq, Prod.mk.injEq]
    constructor
    · rintro ⟨_, _, hj, -⟩
      exact ⟨l', w', hj, rfl, rfl⟩
    · rintro ⟨_, _, hj, -⟩
      exact ⟨_, _, hj, rfl, rfl⟩

theorem getObAddress_eq_none_iff {w' : World} : getObAddressByAddressList env l w = .ok (none, l', w') ↔
      pickAddress env (corrected l) w = .ok (none, l', w') := by
  show (pickAddress env (corrected l) w >>= _) = _ ↔ _
  rcases pickAddress env (corrected l) w with e | ⟨rst, l', w'⟩
  · simp
  · cases rst <;> simp

/-- The choice finds a live address exactly when its strategy comes to one. -/
theorem findsLive_iff : FindsLive env l w ↔ Selectable env l w := by
  have hlength := whites_corrected_length l
  have hcorrected : ∀ {i}, WhiteAt (corrected l) i ↔ WhiteAt l i := whiteAt_map_fixWeight
  match hwhites : whites (corrected l).addArr with
  | [] =>
    rw [hwhites] at hlength
    refine ⟨fun _ => .inl (by rw [← hlength]; decide), fun _ => ⟨?_, ?_⟩⟩
    · rintro ⟨i, hi⟩
      obtain ⟨a, hget, hwhite⟩ := hcorrected.2 hi
      exact absurd (mem_whites.2 ⟨hget, hwhite⟩) (by rw [hwhites]; exact not_mem_nil)
    · intro _
      exact ⟨_, _, getObAddress_eq_none_iff.2 (pickAddress_nil hwhites)⟩
  | [x] =>
    have hx : WhiteAt l x.2 := hcorrected.1 (whiteAt_of_mem (by rw [hwhites]; exact mem_cons_self))
    rw [hwhites] at hlength
    refine ⟨fun _ => .inl (by rw [← hlength]; exact le_refl 1), fun _ => ⟨fun _ => ?_, ?_⟩⟩
    · obtain ⟨l', w', hget⟩ := getObAddress_eq_some_iff.2 ⟨_, _, pickAddress_singleton hwhites⟩
      exact ⟨_, l', w', hget, hx⟩
    · intro hnone
      exact absurd hx (hnone _)
  | x :: y :: rest =>
    have hne : whites (corrected l).addArr ≠ [] := by rw [hwhites]; simp
    have hseveral : 1 < (whites (corrected l).addArr).length := by rw [hwhites]; simp
    have hx : WhiteAt l x.2 := hcorrected.1 (whiteAt_of_mem (by rw [hwhites]; exact mem_cons_self))
    have hpick : pickAddress env (corrected l) w = pickByOption env (corrected l) w :=
      pickAddress_several hseveral
    constructor
    · intro hlive
      right
      by_contra hfinds
      obtain ⟨i, l', w', hget, -⟩ := hlive.some_white ⟨_, hx⟩
      obtain ⟨l'', w'', hpicked⟩ := getObAddress_eq_some_iff.1 ⟨l', w', hget⟩
      rw [hpick] at hpicked
      exact pickByOption_of_not_finds hne (fun _ => whites_corrected_pos) hfinds hpicked
    · rintro (hfew | hfinds)
      · rw [hlength] at hseveral
        exact absurd hfew (Nat.not_le.2 hseveral)
      obtain ⟨i, l', w', hpicked, hi⟩ := pickByOption_of_finds hne hfinds
      refine ⟨fun _ => ?_, fun hnone => absurd hx (hnone _)⟩
      obtain ⟨l'', w'', hget⟩ := getObAddress_eq_some_iff.2 ⟨l', w', hpick.trans hpicked⟩
      exact ⟨i, l'', w'', hget, hcorrected.1 hi⟩

/-! ## The report of the connect loop -/

/-- Nothing picked: the list differs from the one that was looked at in its counter at most. -/
theorem pickAddress_none_addArr {w' : World} (h : pickAddress env l w = .ok (none, l', w')) :
    l'.addArr = l.addArr := by
  unfold pickAddress at h
  split at h
  · cases h
    rfl
  · cases h
  unfold pickByOption at h
  split at h
  · obtain ⟨-, rfl, -⟩ := by simpa only [Except.ok.injEq, Prod.mk.injEq] using h
    rfl
  · simp only [bind_eq_ok] at h
    obtain ⟨-, -, -, -, -, rfl, -⟩ := h
    rfl
  · split at h
    · cases h
      rfl
    · cases h
  · cases h
    rfl

/-- Behind the choice of an address the loop never says that all are BLACK. -/
theorem tryAddress_ne_allInBlack {config : LbConfig} {lbEndtime : Nat} {s : LbState} :
    (tryAddress env config lbEndtime i s).1 ≠ some .allInBlack := by
  by_cases hwhite : ∃ a, s.list.addArr[i]? = some a ∧ a.state = .white
  · obtain ⟨a, hget, hwhite⟩ := hwhite
    rcases tryAddress_of_white env config lbEndtime hget hwhite with ⟨r, hr, htry⟩ | htry
    · rw [htry]
      exact fun h => hr (Option.some.inj h)
    rw [htry]
    obtain ⟨report, s', hafter, -, -, -, hreport⟩ := afterFailure_spec env config lbEndtime i a
      { s with world := (attempt env a s.world).2 }
    rw [hafter]
    rcases hreport with rfl | ⟨-, rfl⟩
    · exact (by decide : some LbReport.retryTimeout ≠ some .allInBlack)
    show (if _ then _ else _) ≠ _
    split <;> decide
  · rw [tryAddress_of_not_white fun a hget hstate => hwhite ⟨a, hget, hstate⟩]
    exact (by decide : none ≠ some LbReport.allInBlack)

/-- A pass that says that all are BLACK has picked nothing. -/
theorem iterate_allInBlack {config : LbConfig} {lbEndtime : Nat} {s s' : LbState}
    (h : iterate env config lbEndtime s = .ok (some .allInBlack, s')) :
    getObAddressByAddressList env (checkObAddressWhite env config s.list s.world).1
      (checkObAddressWhite env config s.list s.world).2 = .ok (none, s'.list, s'.world) := by
  simp only [iterate, bind_eq_ok] at h
  obtain ⟨⟨rst, l, w⟩, hget, h⟩ := h
  cases rst with
  | none =>
    cases h
    exact hget
  | some i => exact absurd (congrArg Prod.fst (Except.ok.inj h)) tryAddress_ne_allInBlack

/-- **A live address is found exactly when the strategy comes to one**, for every list, counter and
random number; and then a pass through the connect loop that reports that all addresses are BLACK
leaves no WHITE one behind. -/
theorem findsLive_iff_selectable (env : Env) : (∀ l w, FindsLive env l w ↔ Selectable env l w) ∧
    ∀ config lbEndtime s s', iterate env config lbEndtime s = .ok (some .allInBlack, s') →
      Selectable env (checkObAddressWhite env config s.list s.world).1
        (checkObAddressWhite env config s.list s.world).2 →
      ∀ i, ¬WhiteAt s'.list i := by
  refine ⟨fun l w => findsLive_iff, ?_⟩
  intro config lbEndtime s s' h hselectable i hwhite
  have hnone := iterate_allInBlack h
  generalize (checkObAddressWhite env config s.list s.world).1 = l at hnone hselectable
  have haddArr : s'.list.addArr = (corrected l).addArr :=
    pickAddress_none_addArr (getObAddress_eq_none_iff.1 hnone)
  have hold : WhiteAt l i := by
    apply whiteAt_map_fixWeight.1
    rw [WhiteAt, haddArr] at hwhite
    exact hwhite
  obtain ⟨j, l', w', hsome, -⟩ := (findsLive_iff.2 hselectable).some_white ⟨i, hold⟩
  rw [hnone] at hsome
  cases hsome

/-- A clock that ticks with every reading, a die that always shows zero, and servers that are down. -/
def stillEnv : Env where
  clock := id
  clock_mono := monotone_id
  rand _ := 0
  rand_lt _ := by decide
  connect _ := .failed 2003

/-- An address in the given state. -/
def plainAddress (state : ObLbAddressState) : ObLbAddress :=
  ⟨1, [104], 2881, 1, state, false, 0, 0, none⟩

/-- One attempt, no time limits, and BLACK at the first failure. -/
def plainConfig : LbConfig := ⟨1, 0, 0, .normal, 1, 0⟩

/-- Three BLACK addresses. -/
def blackAddresses : ObLbAddressList := ⟨.rotation, 0, [plainAddress .black, plainAddress .black, plainAddress .black]⟩

/-- A list with nothing but BLACK addresses is reported as such. -/
theorem black_addresses_reported :
    ∃ s', iterate stillEnv plainConfig 0 ⟨blackAddresses, 1, World.init⟩ =
      .ok (some .allInBlack, s') ∧ ∀ i, ¬WhiteAt s'.list i := by
  have hkeep : checkObAddressWhite stillEnv plainConfig blackAddresses World.init =
      (blackAddresses, { World.init with reads := 1 }) := by
    simp [checkObAddressWhite, getCurrentTimeUs, plainConfig, microseconds, World.init]
  obtain ⟨s', hrun⟩ : ∃ s', iterate stillEnv plainConfig 0
      ⟨blackAddresses, 1, World.init⟩ = .ok (some .allInBlack, s') := by
    rw [iterate, hkeep]
    exact ⟨_, rfl⟩
  refine ⟨s', hrun, (findsLive_iff_selectable stillEnv).2 _ _ _ _ hrun ?_⟩
  exact .inl (Nat.zero_le 1)

/-- Two WHITE addresses in front of a BLACK one. -/
def whiteWhiteBlack : ObLbAddressList :=
  ⟨.rotation, 0, [plainAddress .white, plainAddress .white, plainAddress .black]⟩

/-- **ROTATION loses the WHITE addresses.** The first two calls pick the two WHITE addresses; the third
starts at the BLACK one and finds nothing. -/
theorem third_rotation_misses_white :
    ∃ l1 w1 l2 w2, getObAddressByAddressList stillEnv whiteWhiteBlack World.init = .ok (some 0, l1, w1) ∧
      getObAddressByAddressList stillEnv l1 w1 = .ok (some 1, l2, w2) ∧ ¬FindsLive stillEnv l2 w2 := by
  refine ⟨_, _, _, _, rfl, rfl, ?_⟩
  intro hlive
  obtain ⟨i, l', w', hget, -⟩ := hlive.some_white ⟨0, _, rfl, rfl⟩
  cases hget

end ObConnector.LoadBalance
