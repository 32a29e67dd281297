/-
# ObConnector.LoadBalance.LeftAlone -- blacklisted servers are left alone.

Over a run of connect calls no server should be tried while the blacklist has a young entry for it,
and every call should end after as many attempts as `retry_all_downs` allows. A call reads the
blacklist once, when it starts; what it goes by afterwards are the states of its own addresses. The
invariant `Loop` says that the two agree: a WHITE address has no entry in the blacklist. It holds when
no two addresses of the list share a key. With `host:port` twice in the list the second copy stays
WHITE when the first one fails, and is tried next (`twin_address_tried`).

The number of attempts is bounded because `retry_all_downs` counts them; started at zero it counts from
`2 ^ 32 - 1`. The invariant also keeps the memory of each address large enough: below `2 ^ 31` attempts
`connect_max` does not wrap.
-/
import ObConnector.LoadBalance.Live

namespace ObConnector.LoadBalance

open Lib List

/-! ## Keys -/

variable {k : List UInt8}

theorem SameKey.symm {k' : List UInt8} (h : SameKey k k') : SameKey k' k := Eq.symm h

theorem SameKey.trans {k' k'' : List UInt8} (h : SameKey k k') (h' : SameKey k' k'') : SameKey k k'' :=
  Eq.trans h h'

/-- No entry of the blacklist has the key. -/
def Absent (k : List UInt8) (blacklist : List Black) : Prop := ∀ b ∈ blacklist, ¬SameKey k b.key

/-- No two entries of the blacklist have the same key. -/
def Unique (blacklist : List Black) : Prop := blacklist.Pairwise fun b c => ¬SameKey b.key c.key

variable {bs : List Black}

theorem Absent.of_sublist {bs' : List Black} (h : Absent k bs) (hsub : bs'.Sublist bs) :
    Absent k bs' := fun b hb => h b (hsub.subset hb)

/-- When an entry is removed from a blacklist without doubles, its key is gone. -/
theorem absent_eraseP (h : Unique bs) : Absent k (bs.eraseP fun b => SameKey k b.key) := by
  induction bs with
  | nil => exact fun b hb => absurd hb not_mem_nil
  | cons b bs ih =>
    obtain ⟨hfirst, hrest⟩ := pairwise_cons.1 h
    by_cases hb : SameKey k b.key
    · rw [eraseP_cons_of_pos (by simpa using hb)]
      intro c hc hsame
      exact hfirst c hc (hb.symm.trans hsame)
    rw [eraseP_cons_of_neg (by simpa using hb)]
    intro c hc
    rcases mem_cons.1 hc with rfl | hc
    · exact hb
    · exact ih hrest c hc

variable {a : ObLbAddress} {w : World}

theorem isAtBlacklist_eq_none (h : isAtBlacklist a w = none) : Absent (addressKey a) w.blacklist := by
  rw [isAtBlacklist, Option.map_eq_none_iff, List.find?_eq_none] at h
  intro b hb
  simpa using h b hb

/-- The blacklist behind `append_blacklist`. -/
theorem appendBlacklist_spec (h : Unique w.blacklist) :
    Unique (appendBlacklist a w).blacklist ∧ (appendBlacklist a w).attempts = w.attempts ∧
      ∀ k, Absent k w.blacklist → ¬SameKey k (addressKey a) → Absent k (appendBlacklist a w).blacklist := by
  unfold appendBlacklist
  split
  · exact ⟨h, rfl, fun k hk _ => hk⟩
  rename_i hnew
  refine ⟨?_, rfl, ?_⟩
  · refine pairwise_append.2 ⟨h, pairwise_singleton _ _, ?_⟩
    intro b hb c hc hsame
    rw [mem_singleton] at hc
    subst hc
    exact hnew ⟨b, hb, hsame.symm⟩
  · intro k hk hne b hb
    rcases mem_append.1 hb with hb | hb
    · exact hk b hb
    rw [mem_singleton] at hb
    subst hb
    exact hne

/-! ## What the operations keep of an address -/

/-- What makes up a server: where it is and what it weighs. -/
structure Server where
  host : List UInt8
  port : Int
  weight : Int32

/-- The server of an address. -/
def server (a : ObLbAddress) : Server := ⟨a.host, a.port, (fixWeight a).weight⟩

/-- The key under which the blacklist knows a server. -/
def Server.key (s : Server) : List UInt8 := (s.host ++ 58 :: decimalText s.port).take (maxKeyLen - 1)

theorem addressKey_eq (a : ObLbAddress) : addressKey a = (server a).key := rfl

/-- The servers of a list. -/
def servers (l : ObLbAddressList) : List Server := l.addArr.map server

variable {a' : ObLbAddress}

theorem addressKey_of_server (h : server a' = server a) : addressKey a' = addressKey a := by
  rw [addressKey_eq, addressKey_eq, h]

theorem server_fixWeight (a : ObLbAddress) : server (fixWeight a) = server a := by
  have hpos := fixWeight_pos a
  have htwice : fixWeight (fixWeight a) = fixWeight a := by
    rw [fixWeight, if_neg]
    rw [Int32.le_iff_toInt_le, Int32.toInt_zero]
    omega
  have hhost : (fixWeight a).host = a.host := by
    unfold fixWeight
    split <;> rfl
  have hport : (fixWeight a).port = a.port := by
    unfold fixWeight
    split <;> rfl
  rw [server, server, htwice, hhost, hport]

variable {l : ObLbAddressList}

variable {i : Nat}

/-- Replacing an address by one of the same server keeps the servers. -/
theorem servers_set (hget : l.addArr[i]? = some a) (h : server a' = server a) :
    (l.addArr.set i a').map server = servers l := by
  rw [map_set, h]
  obtain ⟨hi, rfl⟩ := List.getElem?_eq_some_iff.1 hget
  rw [servers, ← map_set, set_getElem_self]

/-- The memory for the times of an address is in order, for `n` more of them. -/
def Ready (n : Nat) (a : ObLbAddress) : Prop :=
  ∃ p list k, a.connectInfo = some p ∧ p.connectList = some list ∧ p.connectCnt + n < 2 ^ 31 ∧
    p.connectCnt < p.connectMax ∧ k ≤ 31 ∧ p.connectMax = 2 ^ k

theorem Ready.mono {n m : Nat} (h : Ready n a) (hm : m ≤ n) : Ready m a := by
  obtain ⟨p, list, k, hinfo, hlist, hcnt, hrest⟩ := h
  exact ⟨p, list, k, hinfo, hlist, by omega, hrest⟩

variable {n : Nat}

theorem Ready.of_info (h : Ready n a) (hinfo : a'.connectInfo = a.connectInfo) : Ready n a' := by
  unfold Ready
  rw [hinfo]
  exact h

/-- The memory a call starts with. -/
theorem ready_fresh (hn : n < 2 ^ 31) (h : a.connectInfo = some (initConnectInfo none)) : Ready n a :=
  ⟨_, _, 5, h, rfl, by simpa [initConnectInfo] using hn, by simp [initConnectInfo, connectCntInit], by decide, rfl⟩

/-- There is memory for one more time: it is large enough, or doubling it does not wrap. -/
theorem initConnectInfo_ready (h : Ready (n + 1) a) :
    ∃ p list k, initConnectInfo a.connectInfo = p ∧ p.connectList = some list ∧
      p.connectCnt + 1 + n < 2 ^ 31 ∧ p.connectCnt + 1 < p.connectMax ∧ k ≤ 31 ∧
      p.connectMax = 2 ^ k := by
  obtain ⟨p, list, k, hinfo, hlist, hcnt, hlt, hk, hmax⟩ := h
  have hle : 2 ^ k ≤ 2 ^ 31 := Nat.pow_le_pow_right (by decide) hk
  have hdec : udec p.connectMax = p.connectMax - 1 := udec_of_pos (by omega) (by omega)
  rw [hinfo]
  by_cases hgrow : p.connectMax - 1 ≤ p.connectCnt
  · have hk30 : k ≤ 30 := by
      rcases Nat.lt_or_ge k 31 with h | h
      · omega
      obtain rfl : k = 31 := le_antisymm hk h
      omega
    have hdouble : p.connectMax * 2 = 2 ^ (k + 1) := by rw [hmax, pow_succ]
    have hsmall : p.connectMax * 2 % 2 ^ 32 = p.connectMax * 2 := by
      apply Nat.mod_eq_of_lt
      omega
    have hinit : initConnectInfo (some p) =
        { p with connectMax := p.connectMax * 2, connectList := some list } := by
      rw [initConnectInfo, hdec, if_pos hgrow]
      simp only [hsmall, if_neg (show ¬p.connectMax * 2 = 0 by omega), hlist, Option.getD_some]
    exact ⟨_, list, k + 1, hinit, rfl, by simp only; omega, by simp only; omega, by omega, hdouble⟩
  · have hinit : initConnectInfo (some p) = p := by
      rw [initConnectInfo, hdec, if_neg hgrow]
    exact ⟨p, list, k, hinit, hlist, by omega, by omega, hk, hmax⟩

/-- A picked address notes the time and stays as it is. -/
theorem appendObAddressConnectInfo_spec (env : Env) (w : World)
    (h : Ready (n + 1) a) : ∃ a' w', appendObAddressConnectInfo env a w = (a', w') ∧ Ready n a' ∧
      server a' = server a ∧ a'.state = a.state ∧ w'.blacklist = w.blacklist ∧
      w'.attempts = w.attempts := by
  obtain ⟨p, list, k, hinit, hlist, hcnt, hroom, hk, hmax⟩ := initConnectInfo_ready h
  unfold appendObAddressConnectInfo
  simp only [hinit, hlist]
  refine ⟨_, _, rfl, ⟨_, _, k, rfl, rfl, hcnt, hroom, hk, hmax⟩, ?_, rfl, rfl, rfl⟩
  unfold server fixWeight
  split <;> rfl

/-! ## Picking -/

/-- SERVERAFFINITY can add up the weights. -/
def Affordable (l : ObLbAddressList) : Prop :=
  l.option = .serverAffinity → ((servers l).map fun s => s.weight.toInt.toNat).sum < 2 ^ 31

theorem weights_corrected (l : ObLbAddressList) : (corrected l).addArr.map (fun a => a.weight.toInt.toNat) =
      (servers l).map fun s => s.weight.toInt.toNat := by
  simp only [corrected, servers, map_map]
  rfl

/-- The weights of several WHITE entries add up to something that is neither zero nor too large. -/
theorem weightSum_bounds (hafford : Affordable l) (hoption : l.option = .serverAffinity)
    (hne : whites (corrected l).addArr ≠ []) :
    0 < weightSum (whites (corrected l).addArr) ∧ weightSum (whites (corrected l).addArr) < 2 ^ 31 := by
  have hsub : ((whites (corrected l).addArr).map fun x => x.1.weight.toInt.toNat).Sublist
      ((corrected l).addArr.map fun a => a.weight.toInt.toNat) := by
    have hall : (corrected l).addArr.map (fun a => a.weight.toInt.toNat) =
        (corrected l).addArr.zipIdx.map fun x => x.1.weight.toInt.toNat := by
      conv_lhs => rw [← zipIdx_map_fst 0 (corrected l).addArr, map_map]
      rfl
    rw [hall]
    exact filter_sublist.map _
  have hle := hsub.sum_le_sum (fun _ _ => Nat.zero_le _)
  have hlt := hafford hoption
  rw [weights_corrected] at hle
  have hpos : 0 < ((whites (corrected l).addArr).map fun x => x.1.weight.toInt.toNat).sum := by
    obtain ⟨x, rest, hwhites⟩ := exists_cons_of_ne_nil hne
    have hx := whites_corrected_pos (by rw [hwhites]; exact mem_cons_self)
    rw [hwhites, map_cons, sum_cons]
    omega
  rw [weightSum, Nat.mod_eq_of_lt (by omega)]
  exact ⟨hpos, by omega⟩

/-- What the loop goes by in an address. -/
def view (a : ObLbAddress) : ObLbAddressState × Server × Option ConnectInfo :=
  (a.state, server a, a.connectInfo)

/-- The lists differ in when their addresses were last picked. -/
def SameButTime (l l' : ObLbAddressList) : Prop :=
  l'.option = l.option ∧ l'.addArr.map view = l.addArr.map view

variable {l' : ObLbAddressList}

theorem SameButTime.servers (h : SameButTime l l') : servers l' = servers l := by
  have hmap := congrArg (List.map fun v => v.2.1) h.2
  rwa [map_map, map_map] at hmap

theorem SameButTime.getElem? (h : SameButTime l l') (hget : l'.addArr[i]? = some a') :
    ∃ a, l.addArr[i]? = some a ∧ view a = view a' := by
  have hview := congrArg (fun vs => vs[i]?) h.2
  simp only [List.getElem?_map, hget] at hview
  exact Option.map_eq_some_iff.1 hview.symm

theorem view_lastTime (a : ObLbAddress) (t : Nat) : view { a with lastTime := t } = view a := by
  unfold view server fixWeight
  split <;> rfl

/-- Noting the time of the pick changes nothing that the loop goes by. -/
theorem sameButTime_modify (l : ObLbAddressList) (flag i t : Nat) : SameButTime l { l with
      rotationFlag := flag
      addArr := l.addArr.modify i fun a => { a with lastTime := t } } := by
  refine ⟨rfl, ext_getElem? fun j => ?_⟩
  rw [List.getElem?_map, List.getElem?_map, List.getElem?_modify]
  cases l.addArr[j]? with
  | none => rfl
  | some a =>
    by_cases hij : i = j
    · simp only [hij, if_true, Option.map_eq_map, Option.map_some, view_lastTime]
    · simp only [hij, if_false, Option.map_eq_map, Option.map_some]

variable {env : Env}

variable {w' : World}

/-- The strategies change nothing that the loop goes by. -/
theorem pickByOption_keeps {rst : Option Nat} (h : pickByOption env l w = .ok (rst, l', w')) :
    SameButTime l l' ∧ w'.blacklist = w.blacklist ∧ w'.attempts = w.attempts := by
  unfold pickByOption at h
  split at h
  · obtain ⟨-, rfl, rfl⟩ := h
    exact ⟨⟨rfl, rfl⟩, rfl, rfl⟩
  · simp only [bind_eq_ok] at h
    obtain ⟨-, -, -, -, -, rfl, rfl⟩ := h
    exact ⟨⟨rfl, rfl⟩, rfl, rfl⟩
  · split at h
    · obtain ⟨-, rfl, rfl⟩ := h
      exact ⟨⟨rfl, rfl⟩, rfl, rfl⟩
    obtain ⟨-, rfl, rfl⟩ := h
    exact ⟨sameButTime_modify l _ _ _, rfl, rfl⟩
  · obtain ⟨-, rfl, rfl⟩ := h
    exact ⟨⟨rfl, rfl⟩, rfl, rfl⟩

/-- With weights that can be added up, no strategy faults. -/
theorem pickByOption_ok (env : Env) (w : World) (hafford : Affordable l)
    (hne : whites (corrected l).addArr ≠ []) : ∃ r, pickByOption env (corrected l) w = .ok r := by
  by_cases hfinds : OptionFinds env (corrected l) w
  · obtain ⟨i, l', w', hpick, -⟩ := pickByOption_of_finds hne hfinds
    exact ⟨_, hpick⟩
  by_cases hoption : l.option = .serverAffinity
  · -- the random number stays below the sum of the weights
    obtain ⟨hpos, hlt⟩ := weightSum_bounds hafford hoption hne
    have hmod := Nat.mod_lt (env.rand w.rands) hpos
    refine absurd ?_ hfinds
    rw [OptionFinds, show (corrected l).option = .serverAffinity from hoption]
    exact ⟨by omega, by omega⟩
  unfold pickByOption
  split
  · exact ⟨_, rfl⟩
  · rename_i hserver
    exact absurd hserver hoption
  · split
    · exact ⟨_, rfl⟩
    · exact ⟨_, rfl⟩
  · exact ⟨_, rfl⟩

/-- What a strategy returns is WHITE. -/
theorem whiteAt_of_pickByOption (hne : whites (corrected l).addArr ≠ [])
    (h : pickByOption env (corrected l) w = .ok (some i, l', w')) : WhiteAt (corrected l) i := by
  by_cases hfinds : OptionFinds env (corrected l) w
  · obtain ⟨j, l'', w'', hpick, hwhite⟩ := pickByOption_of_finds hne hfinds
    rw [h] at hpick
    cases hpick
    exact hwhite
  · exact absurd h (pickByOption_of_not_finds hne (fun _ => whites_corrected_pos) hfinds)

/-- The choice comes to an end, and what it returns is WHITE. -/
theorem pickAddress_spec (env : Env) (w : World) (hafford : Affordable l) :
    ∃ rst l' w', pickAddress env (corrected l) w = .ok (rst, l', w') ∧ SameButTime (corrected l) l' ∧
      w'.blacklist = w.blacklist ∧ w'.attempts = w.attempts ∧ ∀ i, rst = some i → WhiteAt (corrected l) i := by
  match hwhites : whites (corrected l).addArr with
  | [] => exact ⟨none, _, _, pickAddress_nil hwhites, ⟨rfl, rfl⟩, rfl, rfl, fun i hi => (by cases hi)⟩
  | [x] =>
    refine ⟨some x.2, _, _, pickAddress_singleton hwhites, ⟨rfl, rfl⟩, rfl, rfl, ?_⟩
    intro i hi
    obtain rfl := Option.some.inj hi
    exact whiteAt_of_mem (by rw [hwhites]; exact mem_cons_self)
  | x :: y :: rest =>
    have hne : whites (corrected l).addArr ≠ [] := by rw [hwhites]; simp
    have hseveral : 1 < (whites (corrected l).addArr).length := by rw [hwhites]; simp
    obtain ⟨⟨rst, l', w'⟩, hpick⟩ := pickByOption_ok env w hafford hne
    obtain ⟨hsame, hblacklist, hattempts⟩ := pickByOption_keeps hpick
    refine ⟨rst, l', w', (pickAddress_several hseveral).trans hpick, hsame, hblacklist, hattempts, ?_⟩
    rintro i rfl
    exact whiteAt_of_pickByOption hne hpick

/-! ## The invariant of the loop -/

/-- No two servers have the same key. -/
def Distinct (l : ObLbAddressList) : Prop := (servers l).Pairwise fun s t => ¬SameKey s.key t.key

/-- **A WHITE address is not in the blacklist**, and there is memory for `n` more attempts. -/
structure Loop (n : Nat) (l : ObLbAddressList) (blacklist : List Black) : Prop where
  distinct : Distinct l
  affordable : Affordable l
  unique : Unique blacklist
  apart : ∀ (i : Nat) a, l.addArr[i]? = some a → a.state = .white → Absent (addressKey a) blacklist
  ready : ∀ (i : Nat) a, l.addArr[i]? = some a → Ready n a

/-- Two different entries have different keys. -/
theorem Distinct.ne (h : Distinct l) {j : Nat} {b : ObLbAddress} (hij : i ≠ j) (ha : l.addArr[i]? = some a)
    (hb : l.addArr[j]? = some b) : ¬SameKey (addressKey a) (addressKey b) := by
  obtain ⟨hi, rfl⟩ := List.getElem?_eq_some_iff.1 ha
  obtain ⟨hj, rfl⟩ := List.getElem?_eq_some_iff.1 hb
  have hpairs := pairwise_iff_getElem.1 (pairwise_map.1 h)
  rcases Nat.lt_or_gt_of_ne hij with hlt | hgt
  · exact hpairs i j hi hj hlt
  intro hsame
  exact hpairs j i hj hi hgt hsame.symm

theorem getElem?_set_cases {as : List ObLbAddress} {j : Nat} (h : (as.set i a)[j]? = some a') :
    (j = i ∧ a' = a) ∨ (j ≠ i ∧ as[j]? = some a') := by
  rw [List.getElem?_set] at h
  split at h
  · rename_i hij
    split at h
    · exact .inl ⟨hij.symm, (Option.some.inj h).symm⟩
    · cases h
  rename_i hij
  exact .inr ⟨fun hji => hij hji.symm, h⟩

/-- What depends on the servers and the strategy only. -/
theorem Distinct.of_servers (h : Distinct l) (hs : servers l' = servers l) : Distinct l' := by
  unfold Distinct
  rwa [hs]

theorem Affordable.of_servers (h : Affordable l) (hs : servers l' = servers l) (hoption : l'.option = l.option) :
    Affordable l' := by
  unfold Affordable
  rwa [hs, hoption]

theorem servers_corrected (l : ObLbAddressList) : servers (corrected l) = servers l := by
  simp only [servers, corrected, map_map]
  apply map_congr_left
  intro a _
  exact server_fixWeight a

/-- The invariant is kept by what keeps the servers, makes nothing WHITE and leaves the memory. -/
theorem Loop.of_pointwise {m : Nat} (h : Loop n l bs) (hoption : l'.option = l.option) (hs : servers l' = servers l)
    (hpoint : ∀ (i : Nat) a', l'.addArr[i]? = some a' → ∃ a, l.addArr[i]? = some a ∧ (a'.state = .white → a.state = .white) ∧ server a' = server a ∧ (Ready n a → Ready m a')) :
    Loop m l' bs where
  distinct := h.distinct.of_servers hs
  affordable := h.affordable.of_servers hs hoption
  unique := h.unique
  apart i a' hget hwhite := by
    obtain ⟨a, ha, hstate, hserver, -⟩ := hpoint i a' hget
    rw [addressKey_of_server hserver]
    exact h.apart i a ha (hstate hwhite)
  ready i a' hget := by
    obtain ⟨a, ha, -, -, hready⟩ := hpoint i a' hget
    exact hready (h.ready i a ha)

theorem fixWeight_connectInfo (a : ObLbAddress) : (fixWeight a).connectInfo = a.connectInfo := by
  unfold fixWeight
  split <;> rfl

/-- The choice keeps the invariant and uses up memory for one attempt. -/
theorem getObAddress_spec (env : Env) (w : World) (h : Loop (n + 1) l w.blacklist) :
    ∃ rst l' w', getObAddressByAddressList env l w = .ok (rst, l', w') ∧ Loop n l' w.blacklist ∧
      w'.blacklist = w.blacklist ∧ w'.attempts = w.attempts ∧
      ∀ i, rst = some i → ∃ a, l'.addArr[i]? = some a ∧ a.state = .white := by
  obtain ⟨rst, l1, w1, hpick, hsame, hblacklist, hattempts, hwhite⟩ := pickAddress_spec env w h.affordable
  have hs : servers l1 = servers l := hsame.servers.trans (servers_corrected l)
  -- the list that the strategy leaves behind
  have hview : ∀ (i : Nat) a', l1.addArr[i]? = some a' → ∃ a, l.addArr[i]? = some a ∧ a'.state = a.state ∧
      server a' = server a ∧ a'.connectInfo = a.connectInfo := by
    intro i a' hget
    obtain ⟨a, ha, hviews⟩ := hsame.getElem? hget
    obtain ⟨b, hb, rfl⟩ := getElem?_map_fixWeight.1 ha
    simp only [view, Prod.mk.injEq] at hviews
    obtain ⟨hstate, hserver, hinfo⟩ := hviews
    refine ⟨b, hb, ?_, ?_, ?_⟩
    · rw [← hstate, fixWeight_state]
    · rw [← hserver, server_fixWeight]
    · rw [← hinfo, fixWeight_connectInfo]
  cases rst with
  | none =>
    refine ⟨none, l1, w1, getObAddress_eq_none_iff.2 hpick, ?_, hblacklist, hattempts, fun i hi => by cases hi⟩
    apply h.of_pointwise hsame.1 hs
    intro i a' hget
    obtain ⟨a, ha, hstate, hserver, hinfo⟩ := hview i a' hget
    exact ⟨a, ha, fun hw => hstate ▸ hw, hserver, fun hr => (hr.of_info hinfo).mono (Nat.le_succ n)⟩
  | some i =>
    obtain ⟨b, hb, hbwhite⟩ := hwhite i rfl
    have hlen : l1.addArr.length = (corrected l).addArr.length := by
      simpa using congrArg List.length hsame.2
    obtain ⟨hi, -⟩ := List.getElem?_eq_some_iff.1 hb
    rw [← hlen] at hi
    obtain ⟨a1, ha1⟩ : ∃ a1, l1.addArr[i]? = some a1 := ⟨_, List.getElem?_eq_getElem hi⟩
    obtain ⟨a, ha, hstate, hserver, hinfo⟩ := hview i a1 ha1
    have hready : Ready (n + 1) a1 := (h.ready i a ha).of_info hinfo
    obtain ⟨a2, w2, happend, hready2, hserver2, hstate2, hblacklist2, hattempts2⟩ :=
      appendObAddressConnectInfo_spec env w1 hready
    have hget : getObAddressByAddressList env l w =
        .ok (some i, { l1 with addArr := l1.addArr.set i a2 }, w2) := by
      show (pickAddress env (corrected l) w >>= _) = _
      rw [hpick, ok_bind]
      simp only [noteConnect, ha1, happend, pure_eq_ok]
    refine ⟨some i, _, w2, hget, ?_, hblacklist2.trans hblacklist, hattempts2.trans hattempts, ?_⟩
    · refine h.of_pointwise ?_ ?_ ?_
      · exact hsame.1
      · exact (servers_set ha1 hserver2).trans hs
      intro j a' hj
      rcases getElem?_set_cases hj with ⟨rfl, rfl⟩ | ⟨-, hj⟩
      · refine ⟨a, ha, ?_, hserver2.trans hserver, fun _ => hready2⟩
        rw [hstate2, hstate]
        exact id
      obtain ⟨c, hc, hcstate, hcserver, hcinfo⟩ := hview j a' hj
      exact ⟨c, hc, fun hw => hcstate ▸ hw, hcserver, fun hr => (hr.of_info hcinfo).mono (Nat.le_succ n)⟩
    · intro j hj
      obtain rfl := Option.some.inj hj
      refine ⟨a2, ?_, ?_⟩
      · show (l1.addArr.set i a2)[i]? = some a2
        rw [List.getElem?_set_self hi]
      · obtain ⟨c, hc, rfl⟩ := getElem?_map_fixWeight.1 hb
        rw [ha] at hc
        obtain rfl := Option.some.inj hc
        rw [hstate2, hstate, ← fixWeight_state]
        exact hbwhite

/-! ## Turning WHITE and BLACK -/

/-- Expired addresses turn WHITE together with the blacklist. -/
theorem whitenExpired_spec (curtime timeout : Nat) (as : List ObLbAddress) (w : World)
    (hunique : Unique w.blacklist) :
    ∃ as' w', whitenExpired curtime timeout as w = (as', w') ∧ as'.map server = as.map server ∧
      w'.attempts = w.attempts ∧ w'.blacklist.Sublist w.blacklist ∧
      ∀ (i : Nat) a', as'[i]? = some a' → ∃ a, as[i]? = some a ∧ a'.connectInfo = a.connectInfo ∧
        server a' = server a ∧ (a'.state = .white → a.state = .white ∨ Absent (addressKey a') w'.blacklist) := by
  induction as generalizing w with
  | nil => exact ⟨[], w, rfl, rfl, rfl, List.Sublist.refl _, fun i a' h => by cases h⟩
  | cons a rest ih =>
    by_cases hexpired : a.state = .black ∧ a.blackTime + timeout ≤ curtime
    · have hserver : server { a with state := .white } = server a := by
        unfold server fixWeight
        split <;> rfl
      have herase : (removeBlacklist { a with state := .white } w).blacklist.Sublist w.blacklist :=
        eraseP_sublist
      have habsent : Absent (addressKey a) (removeBlacklist { a with state := .white } w).blacklist :=
        absent_eraseP hunique
      obtain ⟨as', w', hrest, hservers, hattempts, hsub, hpoint⟩ :=
        ih (removeBlacklist { a with state := .white } w) (hunique.sublist herase)
      refine ⟨{ a with state := .white } :: as', w', ?_, ?_, hattempts, hsub.trans herase, ?_⟩
      · simp only [whitenExpired, if_pos hexpired, hrest]
      · rw [map_cons, map_cons, hserver, hservers]
      · intro i a' hget
        cases i with
        | zero =>
          obtain rfl := Option.some.inj hget
          exact ⟨a, rfl, rfl, hserver, fun _ => .inr (habsent.of_sublist hsub)⟩
        | succ i => exact hpoint i a' hget
    obtain ⟨as', w', hrest, hservers, hattempts, hsub, hpoint⟩ := ih w hunique
    refine ⟨a :: as', w', ?_, ?_, hattempts, hsub, ?_⟩
    · simp only [whitenExpired, if_neg hexpired, hrest]
    · rw [map_cons, map_cons, hservers]
    · intro i a' hget
      cases i with
      | zero =>
        obtain rfl := Option.some.inj hget
        exact ⟨a, rfl, rfl, rfl, .inl⟩
      | succ i => exact hpoint i a' hget

/-- `check_ob_address_white` keeps the invariant. -/
theorem checkObAddressWhite_spec (env : Env) (config : LbConfig) (h : Loop n l w.blacklist) : ∃ l' w', checkObAddressWhite env config l w = (l', w') ∧
      Loop n l' w'.blacklist ∧ w'.attempts = w.attempts := by
  by_cases htimeout : 0 < microseconds config.blackRemoveTimeout
  · obtain ⟨as', w', hrun, hservers, hattempts, hsub, hpoint⟩ := whitenExpired_spec
      (getCurrentTimeUs env w).1 (microseconds config.blackRemoveTimeout) l.addArr (getCurrentTimeUs env w).2
      h.unique
    refine ⟨{ l with addArr := as' }, w', ?_, ⟨?_, ?_, h.unique.sublist hsub, ?_, ?_⟩, hattempts⟩
    · simp only [checkObAddressWhite, if_pos htimeout, hrun]
    · exact h.distinct.of_servers hservers
    · exact h.affordable.of_servers hservers rfl
    · intro i a' hget hwhite
      obtain ⟨a, ha, -, hserver, hstate⟩ := hpoint i a' hget
      rcases hstate hwhite with hold | habsent
      · rw [addressKey_of_server hserver]
        exact (h.apart i a ha hold).of_sublist hsub
      · exact habsent
    · intro i a' hget
      obtain ⟨a, ha, hinfo, -, -⟩ := hpoint i a' hget
      exact (h.ready i a ha).of_info hinfo
  · refine ⟨l, (getCurrentTimeUs env w).2, ?_, h, rfl⟩
    simp only [checkObAddressWhite, if_neg htimeout]

/-- An address that turns BLACK goes on the blacklist. -/
theorem turnBlack_spec (env : Env) (a : ObLbAddress) (hunique : Unique w.blacklist) :
    ∃ a' w', turnBlack env a w = (a', w') ∧ a'.state = .black ∧ a'.connectInfo = a.connectInfo ∧
      server a' = server a ∧ w'.attempts = w.attempts ∧ Unique w'.blacklist ∧
      ∀ k, Absent k w.blacklist → ¬SameKey k (addressKey a) → Absent k w'.blacklist := by
  obtain ⟨huniq, hattempts, habsent⟩ := appendBlacklist_spec (w := (getCurrentTimeUs env w).2) hunique
  refine ⟨_, _, rfl, rfl, rfl, ?_, hattempts, huniq, habsent⟩
  unfold server fixWeight
  split <;> rfl

/-- Dropping old times leaves the memory in order. -/
theorem Ready.dropOld {p : ConnectInfo} {list : Mem} (h : Ready n a) (hinfo : a.connectInfo = some p)
    {curtime duration : Nat} (hinfo' : a'.connectInfo = some (dropOld curtime duration p list)) : Ready n a' := by
  obtain ⟨p', _, k, hp, -, hcnt, hlt, hk, hmax⟩ := h
  rw [hinfo] at hp
  obtain rfl := Option.some.inj hp
  have hle : (LoadBalance.dropOld curtime duration p list).connectCnt ≤ p.connectCnt := Nat.sub_le _ _
  exact ⟨_, _, k, hinfo', rfl, by omega, lt_of_le_of_lt hle hlt, hk, hmax⟩

/-- `check_ob_address_black` leaves an address as it is, or makes it BLACK and puts it on the
blacklist. -/
theorem checkObAddressBlack_spec (env : Env) (config : LbConfig) (hready : Ready n a) (hunique : Unique w.blacklist) :
    ∃ a' w', checkObAddressBlack env config a w = (a', w') ∧ Ready n a' ∧ server a' = server a ∧
      w'.attempts = w.attempts ∧ Unique w'.blacklist ∧ (a'.state = .white → w'.blacklist = w.blacklist) ∧
      ∀ k, Absent k w.blacklist → ¬SameKey k (addressKey a) → Absent k w'.blacklist := by
  obtain ⟨p, list, hinfo, hlist⟩ : ∃ p list, a.connectInfo = some p ∧ p.connectList = some list := by
    obtain ⟨p, list, -, hinfo, hlist, -⟩ := hready
    exact ⟨p, list, hinfo, hlist⟩
  simp only [checkObAddressBlack, hinfo, Option.bind_some, hlist, Option.map_some]
  split
  · split
    · -- NORMAL
      obtain ⟨a', w', hturn, hblack, hinfo', hserver, hattempts, huniq, habsent⟩ :=
        turnBlack_spec env a hunique
      refine ⟨a', w', hturn, hready.of_info hinfo', hserver, hattempts, huniq, ?_, habsent⟩
      intro hwhite
      rw [hblack] at hwhite
      cases hwhite
    · -- RETRY_DERUATION
      generalize hp : dropOld (getCurrentTimeUs env w).1 (microseconds config.blackAppendDuration) p list = p'
      have hserver' : server { a with connectInfo := some p' } = server a := by
        unfold server fixWeight
        split <;> rfl
      have hready' : Ready n { a with connectInfo := some p' } :=
        hready.dropOld hinfo (congrArg some hp.symm)
      split
      · obtain ⟨a', w', hturn, hblack, hinfo', hserver, hattempts, huniq, habsent⟩ :=
          turnBlack_spec env { a with connectInfo := some p' }
            (show Unique (getCurrentTimeUs env w).2.blacklist from hunique)
        refine ⟨a', w', hturn, hready'.of_info hinfo', hserver.trans hserver', hattempts, huniq, ?_, ?_⟩
        · intro hwhite
          rw [hblack] at hwhite
          cases hwhite
        · exact habsent
      · exact ⟨_, _, rfl, hready', hserver', rfl, hunique, fun _ => rfl, fun _ hk _ => hk⟩
    · exact ⟨a, w, rfl, hready, rfl, rfl, hunique, fun _ => rfl, fun _ hk _ => hk⟩
  · exact ⟨a, w, rfl, hready, rfl, rfl, hunique, fun _ => rfl, fun _ hk _ => hk⟩

/-! ## One pass through the loop -/

/-- Every entry for the server of an attempt is at least as old as the timeout; there is none when
there is no timeout. -/
def Attempt.LeavesAlone (config : LbConfig) (att : Attempt) : Prop :=
  ∀ b ∈ att.blacklist, SameKey att.key b.key →
    0 < config.blackRemoveTimeout ∧ b.blackTime + config.blackRemoveTimeout * 1000 ≤ att.time

/-- The process goes on with at most `n` more attempts, none of them at a blacklisted server. -/
structure Advances (config : LbConfig) (n : Nat) (w w' : World) : Prop where
  unique : Unique w'.blacklist
  attempts : ∃ new, w'.attempts = w.attempts ++ new ∧ new.length ≤ n ∧
    ∀ att ∈ new, att.LeavesAlone config

variable {config : LbConfig}

theorem Advances.trans {m : Nat} {w'' : World} (h : Advances config n w w') (h' : Advances config m w' w'') :
    Advances config (n + m) w w'' := by
  obtain ⟨new, hnew, hlen, hleave⟩ := h.attempts
  obtain ⟨new', hnew', hlen', hleave'⟩ := h'.attempts
  refine ⟨h'.unique, new ++ new', ?_, ?_, ?_⟩
  · rw [hnew', hnew, append_assoc]
  · rw [length_append]
    omega
  · intro att hatt
    rcases mem_append.1 hatt with hatt | hatt
    · exact hleave att hatt
    · exact hleave' att hatt

theorem Advances.mono {m : Nat} (h : Advances config n w w') (hnm : n ≤ m) : Advances config m w w' := by
  obtain ⟨new, hnew, hlen, hleave⟩ := h.attempts
  exact ⟨h.unique, new, hnew, hlen.trans hnm, hleave⟩

/-- An attempt at a server that is not in the blacklist. -/
theorem attempt_advances (config : LbConfig) {w0 : World} (habsent : Absent (addressKey a) w.blacklist)
    (hbase : w.attempts = w0.attempts) (hunique : Unique w'.blacklist)
    (hattempts : w'.attempts = (attempt env a w).2.attempts) : Advances config 1 w0 w' := by
  refine ⟨hunique, [⟨addressKey a, env.clock (w.reads - 1), w.blacklist⟩], ?_, le_refl 1, ?_⟩
  · rw [hattempts, ← hbase]
    rfl
  intro att hatt b hb hsame
  rw [mem_singleton] at hatt
  subst hatt
  exact absurd hsame (habsent b hb)

/-- A failed attempt keeps the invariant. -/
theorem Loop.afterBlack {bs' : List Black} (h : Loop n l bs) (hget : l.addArr[i]? = some a)
    (hwhite : a.state = .white) (hready : Ready n a') (hserver : server a' = server a) (hunique : Unique bs')
    (hsame : a'.state = .white → bs' = bs) (habsent : ∀ k, Absent k bs → ¬SameKey k (addressKey a) → Absent k bs') :
    Loop n { l with addArr := l.addArr.set i a' } bs' where
  distinct := h.distinct.of_servers (servers_set hget hserver)
  affordable := h.affordable.of_servers (servers_set hget hserver) rfl
  unique := hunique
  apart j b hj hb := by
    rcases getElem?_set_cases hj with ⟨rfl, rfl⟩ | ⟨hne, hj⟩
    · rw [hsame hb, addressKey_of_server hserver]
      exact h.apart j a hget hwhite
    · exact habsent _ (h.apart j b hj hb) (h.distinct.ne hne hj hget)
  ready j b hj := by
    rcases getElem?_set_cases hj with ⟨rfl, rfl⟩ | ⟨-, hj⟩
    · exact hready
    · exact h.ready j b hj

/-- **One pass** tries a server that is not in the blacklist, or none, and either ends the call or
keeps the invariant with one attempt less. -/
theorem iterate_spec (env : Env) (config : LbConfig) (lbEndtime : Nat) {s : LbState}
    (hcount : s.retryAllDowns = n + 1) (hn : n + 1 < 2 ^ 31) (h : Loop (n + 1) s.list s.world.blacklist) :
    ∃ report s', iterate env config lbEndtime s = .ok (report, s') ∧ Advances config 1 s.world s'.world ∧
      (report = none → s'.retryAllDowns = n ∧ 0 < n ∧ Loop n s'.list s'.world.blacklist) := by
  obtain ⟨l1, w1, hwhite, hloop1, hattempts1⟩ := checkObAddressWhite_spec env config h
  obtain ⟨rst, l2, w2, hget, hloop2, hblacklist2, hattempts2, hpicked⟩ := getObAddress_spec env w1 hloop1
  have hdec : udec s.retryAllDowns = n := by
    rw [hcount, udec_of_pos (Nat.succ_pos n) (by omega)]
    rfl
  have hrun : iterate env config lbEndtime s = match rst with
      | none => .ok (some .allInBlack, ⟨l2, s.retryAllDowns, w2⟩)
      | some i => .ok (tryAddress env config lbEndtime i ⟨l2, s.retryAllDowns, w2⟩) := by
    simp only [iterate, hwhite, hget]
    cases rst <;> rfl
  have hattempts : w2.attempts = s.world.attempts := hattempts2.trans hattempts1
  rw [← hblacklist2] at hloop2
  cases rst with
  | none =>
    refine ⟨_, _, hrun, ⟨hloop2.unique, [], ?_, Nat.zero_le 1, fun att hatt => absurd hatt not_mem_nil⟩,
      fun hnone => by cases hnone⟩
    rw [append_nil]
    exact hattempts
  | some i =>
    obtain ⟨a, ha, hstate⟩ := hpicked i rfl
    have habsent := hloop2.apart i a ha hstate
    rcases tryAddress_of_white env config lbEndtime (s := ⟨l2, s.retryAllDowns, w2⟩) ha hstate with
      ⟨r, -, htry⟩ | htry
    · refine ⟨some r, _, hrun.trans (congrArg Except.ok htry), ?_, fun hnone => by cases hnone⟩
      exact attempt_advances config habsent hattempts hloop2.unique rfl
    obtain ⟨report, s', hafter, hlist, hblacklist, hattempts', hreport⟩ := afterFailure_spec env config
      lbEndtime i a ⟨l2, s.retryAllDowns, (attempt env a w2).2⟩
    obtain ⟨a', w', hcheck, hready, hserver, hkept, hunique, hsame, hothers⟩ := checkObAddressBlack_spec env
      config (hloop2.ready i a ha) (show Unique (attempt env a w2).2.blacklist from hloop2.unique)
    simp only [hcheck] at hlist hblacklist hattempts'
    have hloop' : Loop n s'.list s'.world.blacklist := by
      rw [hlist, hblacklist]
      exact hloop2.afterBlack ha hstate hready hserver hunique hsame hothers
    refine ⟨report, s', hrun.trans (congrArg Except.ok (htry.trans hafter)), ?_, ?_⟩
    · exact attempt_advances config habsent hattempts hloop'.unique (hattempts'.trans hkept)
    · rintro rfl
      rcases hreport with htimeout | ⟨hcounter, hreport⟩
      · cases htimeout
      rw [hdec] at hcounter hreport
      refine ⟨hcounter, ?_, hloop'⟩
      by_contra hzero
      rw [if_pos (by omega)] at hreport
      cases hreport

/-! ## Calls -/

theorem server_freshAddress (a : ObLbAddress) (i : Nat) : server (freshAddress a i) = server a := by
  have hfix : server (freshAddress a i) = server (fixWeight a) := by
    unfold freshAddress
    unfold server fixWeight
    split <;> rfl
  exact hfix.trans (server_fixWeight a)

theorem loadBlacklist_spec (w : World) (a : ObLbAddress) :
    server (loadBlacklist w a) = server a ∧ (loadBlacklist w a).connectInfo = a.connectInfo ∧
      ((loadBlacklist w a).state = .white → Absent (addressKey a) w.blacklist) := by
  unfold loadBlacklist
  split
  · refine ⟨?_, rfl, nofun⟩
    unfold server fixWeight
    split <;> rfl
  rename_i hnone
  exact ⟨rfl, rfl, fun _ => isAtBlacklist_eq_none hnone⟩

/-- Where everything is WHITE nothing turns WHITE. -/
theorem whitenExpired_white {curtime timeout : Nat} {as : List ObLbAddress}
    (h : ∀ a ∈ as, a.state = .white) : whitenExpired curtime timeout as w = (as, w) := by
  induction as with
  | nil => rfl
  | cons a rest ih =>
    have hwhite := h a mem_cons_self
    rw [whitenExpired, if_neg (by rw [hwhite]; simp), ih fun b hb => h b (mem_cons_of_mem _ hb)]

theorem checkObAddressWhite_white (h : ∀ a ∈ l.addArr, a.state = .white) :
    checkObAddressWhite env config l w = (l, (getCurrentTimeUs env w).2) := by
  simp only [checkObAddressWhite, whitenExpired_white h]
  split <;> rfl

theorem normalOption_eq_serverAffinity {o : ObClientLBOption} (h : normalOption o = .serverAffinity) :
    o = .serverAffinity := by
  cases o <;> first | rfl | cases h

/-- When the loop is reached the states agree with the blacklist. -/
theorem startCall_spec (env : Env) (config : LbConfig) (hn : n < 2 ^ 31) (hdistinct : Distinct l) (hafford : Affordable l) (hunique : Unique w.blacklist) :
    ∃ l' w', startCall env config l w = (l', w') ∧ Loop n l' w'.blacklist ∧ w'.attempts = w.attempts := by
  have hstart : startCall env config l w = ({ l with
      option := normalOption l.option
      addArr := (l.addArr.zipIdx.map fun x => freshAddress x.1 x.2).map
        (loadBlacklist (getCurrentTimeUs env w).2) }, (getCurrentTimeUs env w).2) := by
    have hwhite : ∀ a ∈ (freshList l).addArr, a.state = .white := by
      intro a ha
      obtain ⟨x, -, rfl⟩ := mem_map.1 ha
      rfl
    rw [startCall, checkObAddressWhite_white hwhite]
    rfl
  generalize hw : (getCurrentTimeUs env w).2 = w' at hstart
  have hblacklist : w'.blacklist = w.blacklist := by rw [← hw]; rfl
  have hattempts : w'.attempts = w.attempts := by rw [← hw]; rfl
  have hserver : ∀ x : ObLbAddress × Nat, server (loadBlacklist w' (freshAddress x.1 x.2)) = server x.1 :=
    fun x => (loadBlacklist_spec w' _).1.trans (server_freshAddress x.1 x.2)
  have hservers : ((l.addArr.zipIdx.map fun x => freshAddress x.1 x.2).map (loadBlacklist w')).map server =
      servers l := by
    rw [map_map, map_map, servers]
    conv_rhs => rw [← zipIdx_map_fst 0 l.addArr, map_map]
    apply map_congr_left
    intro x _
    exact hserver x
  have hget : ∀ (i : Nat) a', ((l.addArr.zipIdx.map fun x => freshAddress x.1 x.2).map
      (loadBlacklist w'))[i]? = some a' → ∃ a j, a' = loadBlacklist w' (freshAddress a j) := by
    intro i a' hi
    obtain ⟨b, hb, rfl⟩ := mem_map.1 (mem_of_getElem? hi)
    obtain ⟨x, -, rfl⟩ := mem_map.1 hb
    exact ⟨x.1, x.2, rfl⟩
  refine ⟨_, w', hstart, ⟨hdistinct.of_servers hservers, ?_, hblacklist ▸ hunique, ?_, ?_⟩, hattempts⟩
  · intro hoption
    rw [servers, hservers]
    exact hafford (normalOption_eq_serverAffinity hoption)
  · intro i a' hi hwhite
    obtain ⟨a, j, rfl⟩ := hget i a' hi
    rw [addressKey_of_server (loadBlacklist_spec w' _).1]
    exact (loadBlacklist_spec w' _).2.2 hwhite
  · intro i a' hi
    obtain ⟨a, j, rfl⟩ := hget i a' hi
    exact ready_fresh hn (loadBlacklist_spec w' _).2.1

variable {fuel : Nat}

/-- **The loop** comes to an end within the attempts that are left. -/
theorem connectLoop_spec (env : Env) (config : LbConfig) (lbEndtime : Nat) {s : LbState}
    (hpos : 0 < n) (hcount : s.retryAllDowns = n) (hn : n < 2 ^ 31)
    (h : Loop n s.list s.world.blacklist) (hfuel : n ≤ fuel) :
    ∃ report s', connectLoop env config lbEndtime fuel s = .ok (report, s') ∧
      Advances config n s.world s'.world := by
  induction n generalizing s fuel with
  | zero => exact absurd hpos (lt_irrefl 0)
  | succ n ih =>
    obtain ⟨fuel, rfl⟩ := Nat.exists_eq_add_of_le' (le_trans (Nat.succ_pos n) hfuel)
    obtain ⟨report, s1, hpass, hadvances, hnext⟩ := iterate_spec env config lbEndtime hcount hn h
    rw [connectLoop, hpass]
    cases report with
    | some r => exact ⟨r, s1, rfl, hadvances.mono (by omega)⟩
    | none =>
      obtain ⟨hcount1, hpos1, hloop1⟩ := hnext rfl
      obtain ⟨r, s2, hrun, hrest⟩ := ih hpos1 hcount1 (by omega) hloop1 (show n ≤ fuel by omega)
      exact ⟨r, s2, hrun, (hadvances.trans hrest).mono (by omega)⟩

/-- The arguments of a call. -/
structure LbCall where
  lbStarttime : Nat
  list : ObLbAddressList
  config : LbConfig

/-- What a call needs: servers with different keys, a number of attempts that is neither zero nor too
large for the memory, and, for SERVERAFFINITY, weights that can be added up. -/
structure LbCall.Sound (c : LbCall) : Prop where
  distinct : Distinct c.list
  attempts_pos : 0 < c.config.retryAllDowns
  attempts_lt : c.config.retryAllDowns < 2 ^ 31
  affordable : Affordable c.list

/-- Every call of a run ends, makes at most `max 1 retry_all_downs` attempts, and makes none of them at
a server with a young entry in the blacklist. -/
def LeavesBlacklistedAlone (env : Env) (fuel : Nat) : List LbCall → World → Prop
  | [], _ => True
  | c :: cs, w =>
    ∃ report l config w', connectByAddresslist env fuel c.lbStarttime c.list c.config w =
        .ok (report, l, config, w') ∧
      Advances c.config (max 1 c.config.retryAllDowns) w w' ∧ LeavesBlacklistedAlone env fuel cs w'

/-- One call. -/
theorem connectByAddresslist_spec (env : Env) {c : LbCall} (hc : c.Sound)
    (hunique : Unique w.blacklist) (hfuel : c.config.retryAllDowns ≤ fuel) :
    ∃ report l config w', connectByAddresslist env fuel c.lbStarttime c.list c.config w =
        .ok (report, l, config, w') ∧ Advances c.config c.config.retryAllDowns w w' := by
  unfold connectByAddresslist
  by_cases hempty : c.list.addArr = []
  · rw [if_pos hempty]
    refine ⟨_, _, _, _, rfl, hunique, [], (append_nil _).symm, Nat.zero_le _, ?_⟩
    exact fun att hatt => absurd hatt not_mem_nil
  obtain ⟨l', w', hstart, hloop, hattempts⟩ :=
    startCall_spec env c.config hc.attempts_lt hc.distinct hc.affordable hunique
  obtain ⟨report, s', hrun, hadvances⟩ := connectLoop_spec env c.config
    (c.lbStarttime + microseconds c.config.retryTimeout) (s := ⟨l', c.config.retryAllDowns, w'⟩)
    hc.attempts_pos rfl hc.attempts_lt hloop hfuel
  obtain ⟨new, hnew, hlen, hleave⟩ := hadvances.attempts
  rw [if_neg hempty, hstart]
  simp only [hrun]
  exact ⟨_, _, _, _, rfl, hadvances.unique, new, by rw [hnew, hattempts], hlen, hleave⟩

/-- A run from any blacklist without doubles. -/
theorem leavesBlacklistedAlone_of_unique (env : Env) (hfuel : 2 ^ 31 ≤ fuel)
    {calls : List LbCall} (hcalls : ∀ c ∈ calls, c.Sound) (hunique : Unique w.blacklist) :
    LeavesBlacklistedAlone env fuel calls w := by
  induction calls generalizing w with
  | nil => trivial
  | cons c cs ih =>
    have hc := hcalls c mem_cons_self
    obtain ⟨report, l, config, w', hrun, hadvances⟩ :=
      connectByAddresslist_spec env hc hunique (hc.attempts_lt.le.trans hfuel)
    refine ⟨report, l, config, w', hrun, hadvances.mono (le_max_right _ _), ?_⟩
    exact ih (fun d hd => hcalls d (mem_cons_of_mem _ hd)) hadvances.unique

/-- **Blacklisted servers are left alone** in every run of sound calls, whatever the clock, the random
numbers and the servers do, and every call ends. -/
theorem leavesBlacklistedAlone_of_sound (env : Env) (calls : List LbCall) (hcalls : ∀ c ∈ calls, c.Sound) :
    ∃ n, ∀ fuel, n ≤ fuel → LeavesBlacklistedAlone env fuel calls World.init :=
  ⟨2 ^ 31, fun _ hfuel => leavesBlacklistedAlone_of_unique env hfuel hcalls List.Pairwise.nil⟩

/-- An address of the server with the given name. -/
def serverNamed (name : UInt8) : ObLbAddress := ⟨0, [name], 1, 1, .white, false, 0, 0, none⟩

/-- Up to two attempts; a server that fails is left alone for a minute. -/
def minuteConfig : LbConfig := ⟨2, 0, 60000, .normal, 1, 0⟩

/-- Two servers, neither of which answers. -/
def twoServers : LbCall := ⟨0, ⟨.rotation, 0, [serverNamed 97, serverNamed 98]⟩, minuteConfig⟩

theorem twoServers_left_alone :
    ∃ n, ∀ fuel, n ≤ fuel → LeavesBlacklistedAlone stillEnv fuel [twoServers, twoServers] World.init := by
  have hsound : twoServers.Sound := by
    refine ⟨?_, by decide, by decide, nofun⟩
    refine pairwise_cons.2 ⟨?_, pairwise_singleton _ _⟩
    intro s hs hsame
    obtain rfl : s = server (serverNamed 98) := mem_singleton.1 hs
    exact absurd (congrArg List.head? hsame) (by decide)
  apply leavesBlacklistedAlone_of_sound
  intro c hc
  have heq : c = twoServers := by simpa using hc
  rw [heq]
  exact hsound

/-- More fuel gives the same result. -/
theorem connectLoop_add (env : Env) (config : LbConfig) (lbEndtime : Nat) {s : LbState}
    {r : LbReport × LbState} (h : connectLoop env config lbEndtime fuel s = .ok r) (k : Nat) :
    connectLoop env config lbEndtime (fuel + k) s = .ok r := by
  induction fuel generalizing s with
  | zero => cases h
  | succ fuel ih =>
    rw [add_right_comm, connectLoop]
    obtain ⟨⟨report, s1⟩, hpass, h⟩ := bind_eq_ok.1 h
    rw [hpass]
    cases report with
    | some _ => exact h
    | none => exact ih h

theorem connectByAddresslist_add (env : Env) {lbStarttime : Nat} {r : LbReport × ObLbAddressList × LbConfig × World}
    (h : connectByAddresslist env fuel lbStarttime l config w = .ok r) (k : Nat) :
    connectByAddresslist env (fuel + k) lbStarttime l config w = .ok r := by
  unfold connectByAddresslist at h ⊢
  split at h
  · rename_i hempty
    rw [if_pos hempty]
    exact h
  rename_i hempty
  rw [if_neg hempty]
  obtain ⟨⟨report, s⟩, hloop, h⟩ := bind_eq_ok.1 h
  exact bind_eq_ok.2 ⟨_, connectLoop_add env config _ hloop k, h⟩

/-- The same server twice. -/
def twinServers : LbCall := ⟨0, ⟨.rotation, 0, [serverNamed 97, serverNamed 97]⟩, minuteConfig⟩

/-- The attempts of a call that comes to an end. -/
def attemptsOf (r : Except Fault (LbReport × ObLbAddressList × LbConfig × World)) : Option (List Attempt) :=
  match r with
  | .ok (_, _, _, w) => some w.attempts
  | .error _ => none

/-- **A server is tried although it has just been blacklisted**, when it is in the list twice. -/
theorem twin_address_tried :
    ¬∃ n, ∀ fuel, n ≤ fuel → LeavesBlacklistedAlone stillEnv fuel [twinServers] World.init := by
  rintro ⟨n, hall⟩
  obtain ⟨report, l, config, w, hrun, hadvances, -⟩ := hall (2 + n) (by omega)
  have hattempts : attemptsOf (connectByAddresslist stillEnv 2 0 twinServers.list minuteConfig World.init) =
      some [⟨[97, 58, 49], 4, []⟩, ⟨[97, 58, 49], 8, [⟨[97, 58, 49], 5⟩]⟩] := by
    decide +kernel
  rcases hshort : connectByAddresslist stillEnv 2 0 twinServers.list minuteConfig World.init with
    e | ⟨report', l', config', w'⟩
  · rw [hshort] at hattempts
    cases hattempts
  have hlong := connectByAddresslist_add stillEnv hshort n
  rw [show connectByAddresslist stillEnv (2 + n) 0 twinServers.list minuteConfig World.init = _ from hrun]
    at hlong
  obtain ⟨rfl, rfl, rfl, rfl⟩ : report = report' ∧ l = l' ∧ config = config' ∧ w = w' := by
    simpa only [Except.ok.injEq, Prod.mk.injEq] using hlong
  rw [hshort] at hattempts
  obtain ⟨new, hnew, -, hleave⟩ := hadvances.attempts
  -- the entry is three microseconds old when the second attempt is made
  have hsecond : (⟨[97, 58, 49], 8, [⟨[97, 58, 49], 5⟩]⟩ : Attempt) ∈ new := by
    have hall : w.attempts = new := hnew
    rw [← hall, Option.some.inj hattempts]
    exact mem_cons_of_mem _ mem_cons_self
  have hold := (hleave _ hsecond ⟨[97, 58, 49], 5⟩ mem_cons_self rfl).2
  exact absurd hold (by decide)

end ObConnector.LoadBalance
