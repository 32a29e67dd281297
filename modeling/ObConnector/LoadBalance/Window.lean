/-
# ObConnector.LoadBalance.Window -- the attempts that RETRY_DURATION counts.

Under RETRY_DURATION a server turns BLACK when there were enough failed attempts within a duration. The
times of the attempts are kept in a list; after a failure `check_ob_address_black` drops those that are
too old. It moves the others to the front, but takes their number for a number of bytes: the list is
what it should be as long as nothing has to be moved. So the window slides properly when at every
check all stored attempts are young enough, or none is (`window_slides`), and not when an old attempt
leaves while younger ones stay (`three_attempts_mixed_up`).
-/
import ObConnector.LoadBalance.LeftAlone

namespace ObConnector.LoadBalance

open Lib List

/-! ## Stored times -/

/-- The `n` times from index `idx` on. -/
def timesAt (list : Mem) (idx n : Nat) : List Nat :=
  (List.range' idx n).map fun k => leNat (loadAt list (8 * k) 8)

/-- The times that are stored for an address. -/
def storedTimes (a : ObLbAddress) : List Nat :=
  match a.connectInfo.bind fun p => p.connectList.map fun list => (p, list) with
  | some (p, list) => timesAt list 0 p.connectCnt
  | none => []

/-- The attempts that are at most `duration` old. -/
def window (duration now : Nat) (times : List Nat) : List Nat := times.filter fun t => now ≤ t + duration

/-- What has left the window does not come back. -/
theorem window_window (duration : Nat) {now later : Nat} (h : now ≤ later) (times : List Nat) :
    window duration later (window duration now times) = window duration later times := by
  rw [window, window, filter_filter]
  apply filter_congr
  intro t _
  simp only [decide_eq_decide, ← Bool.decide_and]
  omega

theorem window_append (duration now : Nat) (times times' : List Nat) :
    window duration now (times ++ times') = window duration now times ++ window duration now times' :=
  filter_append ..

variable {a : ObLbAddress}

theorem storedTimes_eq {p : ConnectInfo} {list : Mem} (hinfo : a.connectInfo = some p)
    (hlist : p.connectList = some list) : storedTimes a = timesAt list 0 p.connectCnt := by
  rw [storedTimes, hinfo, Option.bind_some, hlist, Option.map_some]

theorem tooOld_of_young {now duration : Nat} {list : Mem} {n : Nat} {idx : Nat}
    (h : ∀ t ∈ timesAt list idx n, now ≤ t + duration) : tooOld now duration list idx n = 0 := by
  cases n with
  | zero => rfl
  | succ n =>
    rw [timesAt, range'_succ, map_cons, forall_mem_cons] at h
    rw [tooOld, if_pos h.1]

theorem tooOld_of_old {now duration : Nat} {list : Mem} {n : Nat} {idx : Nat}
    (h : ∀ t ∈ timesAt list idx n, ¬now ≤ t + duration) : tooOld now duration list idx n = n := by
  induction n generalizing idx with
  | zero => rfl
  | succ n ih =>
    rw [timesAt, range'_succ, map_cons, forall_mem_cons] at h
    rw [tooOld, if_neg h.1, ih h.2]

/-- A time that is stored behind the others. -/
theorem timesAt_storeAt (list : Mem) (n : Nat) {t : Nat} (ht : t < 2 ^ 64) :
    timesAt (storeAt list (8 * n) (leBytes 8 t)) 0 (n + 1) = timesAt list 0 n ++ [t] := by
  have hold (k : Nat) (hk : k ∈ List.range' 0 n) :
      leNat (loadAt (storeAt list (8 * n) (leBytes 8 t)) (8 * k) 8) = leNat (loadAt list (8 * k) 8) := by
    rw [mem_range'_1] at hk
    congr 1
    apply loadAt_congr
    intro i hi
    exact storeAt_below (by omega)
  have hnew := load_of_holds (holds_storeAt list (8 * n) (leBytes 8 t)) (length_leBytes 8 t).symm
  rw [timesAt, range'_concat, map_append, map_congr_left hold, map_singleton, one_mul,
    zero_add, hnew, leNat_leBytes_of_lt (by omega)]
  rfl

/-! ## One failed attempt -/

/-- More memory holds the same times. -/
theorem initConnectInfo_times {p p' : ConnectInfo} {list list' : Mem} (hlist : p.connectList = some list)
    (hinit : initConnectInfo (some p) = p') (hlist' : p'.connectList = some list') :
    list' = list ∧ p'.connectCnt = p.connectCnt := by
  subst hinit
  rw [initConnectInfo] at hlist' ⊢
  split at hlist'
  · rename_i hgrow
    rw [if_pos hgrow]
    dsimp only at hlist'
    rw [hlist] at hlist'
    split at hlist'
    · cases hlist'
    · exact ⟨(Option.some.inj hlist').symm, rfl⟩
  · rename_i hroom
    rw [if_neg hroom]
    exact ⟨Option.some.inj (hlist'.symm.trans hlist), rfl⟩

/-- The time of a pick is stored behind the others. -/
theorem storedTimes_append {env : Env} (hclock : ∀ k, env.clock k < 2 ^ 64) (w : World) {n : Nat}
    (h : Ready (n + 1) a) :
    storedTimes (appendObAddressConnectInfo env a w).1 = storedTimes a ++ [env.clock w.reads] := by
  obtain ⟨p, list, -, hinfo, hlist, -⟩ := id h
  obtain ⟨p', list', k, hinit, hlist', -⟩ := initConnectInfo_ready h
  rw [hinfo] at hinit
  obtain ⟨rfl, hcnt⟩ := initConnectInfo_times hlist hinit hlist'
  unfold appendObAddressConnectInfo
  simp only [hinfo, hinit, hlist']
  rw [storedTimes_eq hinfo hlist, hcnt]
  exact timesAt_storeAt list' p.connectCnt (hclock _)

section Check

variable {env : Env} {config : LbConfig} (hstrategy : config.blackAppendStrategy = .retryDuration)
  (hduration : config.blackAppendDuration * 1000 < 2 ^ 32)

include hstrategy hduration

/-- **A check that moves nothing**: when all stored attempts are in the window, or none, the window is
what stays stored, and its length decides. -/
theorem checkObAddressBlack_window {w : World} {n : Nat} (hready : Ready n a) (hwhite : a.state = .white)
    (hmoves : window (config.blackAppendDuration * 1000) (env.clock w.reads) (storedTimes a) = storedTimes a ∨ window (config.blackAppendDuration * 1000) (env.clock w.reads) (storedTimes a) = []) :
    ∃ a', (checkObAddressBlack env config a w).1 = a' ∧ Ready n a' ∧
      storedTimes a' = window (config.blackAppendDuration * 1000) (env.clock w.reads) (storedTimes a) ∧
      (a'.state = .black ↔ config.blackAppendRetrytimes ≤ (storedTimes a').length) := by
  obtain ⟨p, list, -, hinfo, hlist, -⟩ := id hready
  have hus : microseconds config.blackAppendDuration = config.blackAppendDuration * 1000 := Nat.mod_eq_of_lt hduration
  obtain ⟨p', hp'⟩ : ∃ p', dropOld (env.clock w.reads) (config.blackAppendDuration * 1000) p list = p' := ⟨_, rfl⟩
  have hstored := storedTimes_eq hinfo hlist
  have hready' (b : ObLbAddress) (hb : b.connectInfo = some p') : Ready n b :=
    hready.dropOld hinfo (hb.trans (congrArg some hp'.symm))
  -- either no time is too old, or all are, and then nothing is left to be moved
  have htimes (b : ObLbAddress) (hb : b.connectInfo = some p') :
      storedTimes b = window (config.blackAppendDuration * 1000) (env.clock w.reads) (storedTimes a) ∧
        p'.connectCnt = (storedTimes b).length := by
    rw [storedTimes, hb, ← hp']
    dsimp only [dropOld]
    rw [hstored] at hmoves ⊢
    rcases hmoves with hall | hnone
    · rw [hall, tooOld_of_young fun t ht => by simpa using filter_eq_self.1 hall t ht]
      simp [timesAt]
    rw [hnone, tooOld_of_old fun t ht => by simpa using filter_eq_nil_iff.1 hnone t ht, Nat.sub_self]
    exact ⟨rfl, rfl⟩
  unfold checkObAddressBlack
  simp only [hinfo, Option.bind_some, hlist, Option.map_some, if_pos hwhite, hstrategy, getCurrentTimeUs, hus, hp']
  split
  · rename_i hmany
    refine ⟨_, rfl, hready' _ rfl, (htimes _ rfl).1, iff_of_true rfl ?_⟩
    rw [← (htimes _ rfl).2]
    exact hmany
  rename_i hfew
  refine ⟨_, rfl, hready' _ rfl, (htimes _ rfl).1, iff_of_false ?_ ?_⟩
  · rw [hwhite]
    decide
  · rw [← (htimes _ rfl).2]
    exact hfew

end Check

/-! ## Sequences of failed attempts -/

/-- A failed attempt: the address, WHITE as it has to be, is picked in one state of the process and
checked in a later one. -/
def failedAttempt (env : Env) (config : LbConfig) (a : ObLbAddress) (s : World × World) : ObLbAddress :=
  (checkObAddressBlack env config (appendObAddressConnectInfo env { a with state := .white } s.1).1 s.2).1

/-- What is expected of the attempts that follow those at `times`: behind each the window is stored, and
the address is BLACK exactly when it is large enough. -/
def Slides (env : Env) (config : LbConfig) : ObLbAddress → List Nat → List (World × World) → Prop
  | _, _, [] => True
  | a, times, s :: rest =>
    let young := window (config.blackAppendDuration * 1000) (env.clock s.2.reads) (times ++ [env.clock s.1.reads])
    let a' := failedAttempt env config a s
    storedTimes a' = young ∧ (a'.state = .black ↔ config.blackAppendRetrytimes ≤ young.length) ∧
      Slides env config a' (times ++ [env.clock s.1.reads]) rest

/-- At every check all stored attempts are in the window, or none is. An attempt is the time of its pick
and the time of its check. -/
def AllOrNone (duration : Nat) : List Nat → List (Nat × Nat) → Prop
  | _, [] => True
  | stored, (time, now) :: rest =>
    let young := window duration now (stored ++ [time])
    (young = stored ++ [time] ∨ young = []) ∧ AllOrNone duration young rest

/-- The attempts from a state on in which the window is stored. -/
theorem slides_of_allOrNone {env : Env} (hclock : ∀ k, env.clock k < 2 ^ 64) {config : LbConfig}
    (hstrategy : config.blackAppendStrategy = .retryDuration)
    (hduration : config.blackAppendDuration * 1000 < 2 ^ 32) {attempts : List (World × World)}
    (hordered : (attempts.map fun s => s.2.reads).Pairwise (· ≤ ·)) (hready : Ready attempts.length a)
    {times : List Nat}
    (hstored : ∀ s ∈ attempts, window (config.blackAppendDuration * 1000) (env.clock s.2.reads) (storedTimes a) = window (config.blackAppendDuration * 1000) (env.clock s.2.reads) times)
    (hmoves : AllOrNone (config.blackAppendDuration * 1000) (storedTimes a) (attempts.map fun s => (env.clock s.1.reads, env.clock s.2.reads))) :
    Slides env config a times attempts := by
  induction attempts generalizing a times with
  | nil => trivial
  | cons s rest ih =>
    rw [map_cons, pairwise_cons] at hordered
    obtain ⟨hmove, hmoves⟩ := hmoves
    have hwhite : Ready (rest.length + 1) { a with state := .white } := hready.of_info rfl
    obtain ⟨a1, w1, heq, hready1, -, hstate1, -⟩ := appendObAddressConnectInfo_spec env s.1 hwhite
    have hstored1 := storedTimes_append hclock s.1 hwhite
    rw [heq] at hstored1
    change storedTimes a1 = storedTimes a ++ [env.clock s.1.reads] at hstored1
    rw [← hstored1] at hmove hmoves
    obtain ⟨a2, hcheck, hready2, hstored2, hblack⟩ :=
      checkObAddressBlack_window hstrategy hduration hready1 hstate1 hmove
    have hfailed : failedAttempt env config a s = a2 := by rw [failedAttempt, heq, hcheck]
    have hyoung : storedTimes a2 = window (config.blackAppendDuration * 1000) (env.clock s.2.reads)
        (times ++ [env.clock s.1.reads]) := by
      rw [hstored2, hstored1, window_append, hstored s mem_cons_self, ← window_append]
    rw [Slides, hfailed]
    refine ⟨hyoung, by rw [← hyoung]; exact hblack, ih hordered.2 hready2 ?_ (by rw [hstored2]; exact hmoves)⟩
    intro s' hs'
    have hlater := env.clock_mono (hordered.1 _ (mem_map_of_mem hs'))
    rw [hyoung, window_window _ hlater]

/-- **The window slides when nothing has to be moved**: for every sequence of failed attempts of one call,
when the duration is no more than an `unsigned int` of microseconds and at every check all stored attempts
are in the window or none is. -/
theorem window_slides (env : Env) (hclock : ∀ k, env.clock k < 2 ^ 64) (config : LbConfig)
    (hstrategy : config.blackAppendStrategy = .retryDuration) (hduration : config.blackAppendDuration * 1000 < 2 ^ 32)
    (attempts : List (World × World)) (hfew : attempts.length < 2 ^ 31)
    (hordered : (attempts.map fun s => s.2.reads).Pairwise (· ≤ ·)) (a : ObLbAddress) (i : Nat)
    (hmoves : AllOrNone (config.blackAppendDuration * 1000) []
      (attempts.map fun s => (env.clock s.1.reads, env.clock s.2.reads))) :
    Slides env config (freshAddress a i) [] attempts := by
  have hnone : storedTimes (freshAddress a i) = [] := rfl
  refine slides_of_allOrNone hclock hstrategy hduration hordered (ready_fresh hfew rfl) ?_ (by rw [hnone]; exact hmoves)
  intro s _
  rw [hnone]

/-- A clock that shows the number of its readings, up to a point. -/
def plainClock : Env where
  clock k := min k 2000
  clock_mono _ _ h := min_le_min_right _ h
  rand _ := 0
  rand_lt := stillEnv.rand_lt
  connect _ := .failed 0

/-- Attempts that fail at once. -/
def failsAt (times : List Nat) : List (World × World) :=
  times.map fun t => ({ World.init with reads := t }, { World.init with reads := t })

/-- RETRY_DURATION over one millisecond. -/
def oneMillisecond (retrytimes : Nat) : LbConfig := ⟨0, 0, 0, .retryDuration, retrytimes, 1⟩

def someServer : ObLbAddress := ⟨0, [], 0, 1, .white, false, 0, 0, none⟩

/-- Two attempts within the duration are both counted. -/
theorem two_attempts_counted :
    Slides plainClock (oneMillisecond 2) (freshAddress someServer 0) [] (failsAt [0, 500]) :=
  window_slides plainClock (fun k => lt_of_le_of_lt (min_le_right k 2000) (by decide)) (oneMillisecond 2) rfl
    (by decide) (failsAt [0, 500]) (by decide) (by decide) someServer 0
    ⟨.inl (by decide), .inl (by decide), trivial⟩

/-- When the first of three attempts leaves the window, the second is stored twice and the third lost. -/
theorem three_attempts_mixed_up :
    ¬Slides plainClock (oneMillisecond 9) (freshAddress someServer 0) [] (failsAt [0, 1000, 1500]) ∧
      storedTimes ((failsAt [0, 1000, 1500]).foldl (failedAttempt plainClock (oneMillisecond 9))
        (freshAddress someServer 0)) = [1000, 1000] := by
  have hstored : storedTimes ((failsAt [0, 1000, 1500]).foldl (failedAttempt plainClock (oneMillisecond 9))
      (freshAddress someServer 0)) = [1000, 1000] := by decide +kernel
  refine ⟨?_, hstored⟩
  rintro ⟨-, -, -, -, hthird, -⟩
  exact absurd (hstored.symm.trans hthird) (by decide)

end ObConnector.LoadBalance
