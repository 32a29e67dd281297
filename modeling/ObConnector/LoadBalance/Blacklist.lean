/-
# ObConnector.LoadBalance.Blacklist -- the blacklist is a finite map.

The blacklist of the process is an array that doubles before it is full, searched from the front, and
closed up when an entry is removed. `BlackList` is this array; its entries are the list that
`ObConnector.LoadBalance.Connect` works with (`entries_step`). `count` and `max` are numbers here: they
would leave an `unsigned int` with 2^31 servers.

As a map the blacklist takes the text `host:port`, up to the case of its letters, to the time of the
first append since the last removal (`blacklist_is_map`).
-/
import ObConnector.LoadBalance.LeftAlone

namespace ObConnector.LoadBalance

open Lib List

/-! ## The array -/

/-- `BlackList`; `list` is `none` when it is NULL. -/
structure BlackList where
  count : Nat
  max : Nat
  list : Option (Nat → Black)

/-- A call to one of the three functions. -/
inductive BlackCall where
  | append (a : ObLbAddress)
  | remove (a : ObLbAddress)
  | isAt (a : ObLbAddress)

def BlackCall.address : BlackCall → ObLbAddress
  | append a | remove a | isAt a => a

namespace BlackList

/-- The static variable `blacklist`. -/
def empty : BlackList := ⟨0, 0, none⟩

/-- The entries below `count`. -/
def entries (bl : BlackList) : List Black :=
  match bl.list with
  | none => []
  | some list => (List.range bl.count).map list

/-- The loop that looks for a key. -/
def search (bl : BlackList) (key : List UInt8) : Option Nat := bl.entries.findIdx? fun b => SameKey key b.key

/-- Memory for one more entry. -/
def grow (bl : BlackList) : BlackList :=
  match bl.list with
  | none => ⟨0, connectCntInit, some fun _ => ⟨[], 0⟩⟩
  | some _ => if bl.max - 1 ≤ bl.count then { bl with max := bl.max * 2 } else bl

/-- The store behind the last entry. -/
def push (bl : BlackList) (b : Black) : BlackList :=
  { bl with list := bl.list.map fun list => Function.update list bl.count b, count := bl.count + 1 }

/-- The `memmove` and the `memset` of `remove_blacklist`. -/
def close (idx count : Nat) (list : Nat → Black) (i : Nat) : Black :=
  if i = count - 1 then ⟨[], 0⟩ else if idx ≤ i ∧ i < count then list (i + 1) else list i

/-- `append_blacklist`, `remove_blacklist` and `is_at_blacklist`, as far as they change the array. -/
def step (bl : BlackList) : BlackCall → BlackList
  | .append a =>
    match bl.grow.search (addressKey a) with
    | some _ => bl.grow
    | none => bl.grow.push ⟨addressKey a, a.blackTime⟩
  | .remove a =>
    match bl.search (addressKey a) with
    | some idx => { bl with list := bl.list.map (close idx bl.count), count := bl.count - 1 }
    | none => bl
  | .isAt _ => bl

/-- What `is_at_blacklist` reports: the time of the entry. -/
def isAt (bl : BlackList) (a : ObLbAddress) : Option Nat :=
  (bl.search (addressKey a)).bind fun i => (bl.entries[i]?).map Black.blackTime

/-- The array after some calls. -/
def run (calls : List BlackCall) : BlackList := calls.foldl step empty

/-- Once there is memory, there is room for one more entry. -/
def Roomy (bl : BlackList) : Prop := (bl.list = none → bl.count = 0) ∧ (bl.list ≠ none → bl.count < bl.max)

variable {bl : BlackList}

theorem length_entries (h : bl.Roomy) : bl.entries.length = bl.count := by
  unfold entries
  cases hlist : bl.list with
  | none => exact (h.1 hlist).symm
  | some list => simp

theorem entries_grow (bl : BlackList) : bl.grow.entries = bl.entries := by
  unfold grow
  cases hlist : bl.list with
  | none => simp [entries, hlist]
  | some list =>
    dsimp only
    split <;> simp [entries, hlist]

theorem roomy_grow (h : bl.Roomy) : bl.grow.list ≠ none ∧ bl.grow.count + 1 < bl.grow.max := by
  unfold grow
  cases hlist : bl.list with
  | none => exact ⟨nofun, Nat.lt_of_sub_eq_succ rfl⟩
  | some list =>
    have hlt := h.2 (by simp [hlist])
    dsimp only
    split
    · exact ⟨nofun, by dsimp only; omega⟩
    · exact ⟨by simp [hlist], by omega⟩

theorem entries_push (h : bl.list ≠ none) (b : Black) : (bl.push b).entries = bl.entries ++ [b] := by
  obtain ⟨list, hlist⟩ := Option.ne_none_iff_exists'.1 h
  simp only [entries, push, hlist, Option.map_some]
  rw [range_succ, map_append, map_singleton, Function.update_self]
  congr 1
  apply map_congr_left
  intro i hi
  exact Function.update_of_ne (ne_of_lt (mem_range.1 hi)) _ _

/-- Closing up leaves out one entry. -/
theorem map_close {idx count : Nat} (hidx : idx < count) (list : Nat → Black) :
    (List.range (count - 1)).map (close idx count list) = ((List.range count).map list).eraseIdx idx := by
  apply ext_getElem
  · rw [length_map, length_range, length_eraseIdx_of_lt (by simpa using hidx), length_map, length_range]
  · intro i hi hi'
    rw [length_map, length_range] at hi
    rw [getElem_map, getElem_range, getElem_eraseIdx, close, if_neg (by omega)]
    by_cases hlt : i < idx
    · rw [if_neg (by omega), dif_pos hlt, getElem_map, getElem_range]
    · rw [if_pos (by omega), dif_neg hlt, getElem_map, getElem_range]

/-! ## The entries -/

/-- **The calls on the array are those on the list of its entries**, and leave room. -/
theorem entries_step {bl : BlackList} (h : bl.Roomy) {w : World} (hw : w.blacklist = bl.entries) (c : BlackCall) :
    (bl.step c).Roomy ∧ (bl.step c).entries = match c with
      | .append a => (appendBlacklist a w).blacklist
      | .remove a => (removeBlacklist a w).blacklist
      | .isAt _ => w.blacklist := by
  cases c with
  | append a =>
    obtain ⟨hlist, hroom⟩ := roomy_grow h
    have hsearch : bl.grow.search (addressKey a) = w.blacklist.findIdx? fun b => SameKey (addressKey a) b.key := by
      rw [search, entries_grow, hw]
    simp only [step, appendBlacklist]
    split
    · rename_i i hfound
      rw [hsearch, List.findIdx?_eq_some_iff_getElem] at hfound
      obtain ⟨hi, hsame, -⟩ := hfound
      rw [if_pos ⟨_, getElem_mem hi, by simpa using hsame⟩, entries_grow, hw]
      exact ⟨⟨fun hnone => absurd hnone hlist, fun _ => by omega⟩, rfl⟩
    rename_i hnone
    rw [hsearch, List.findIdx?_eq_none_iff] at hnone
    rw [if_neg (by rintro ⟨b, hb, hsame⟩; simpa [hsame] using hnone b hb), entries_push hlist, entries_grow, hw]
    refine ⟨⟨fun hnone => ?_, fun _ => hroom⟩, rfl⟩
    rw [push, Option.map_eq_none_iff] at hnone
    exact absurd hnone hlist
  | remove a =>
    simp only [step, removeBlacklist, hw, eraseP_eq_eraseIdx]
    cases hfound : bl.search (addressKey a) with
    | none =>
      rw [search] at hfound
      rw [hfound]
      exact ⟨h, rfl⟩
    | some idx =>
      rw [search] at hfound
      rw [hfound]
      have hidx : idx < bl.count := by
        rw [← length_entries h]
        exact (List.findIdx?_eq_some_iff_getElem.1 hfound).1
      cases hlist : bl.list with
      | none => exact absurd (h.1 hlist) (by omega)
      | some list =>
        have hlt := h.2 (by simp [hlist])
        refine ⟨⟨nofun, fun _ => by dsimp only; omega⟩, ?_⟩
        simp only [entries, hlist]
        exact map_close hidx list
  | isAt a => exact ⟨h, hw.symm⟩

theorem isAt_eq (bl : BlackList) {w : World} (hw : w.blacklist = bl.entries) (a : ObLbAddress) :
    bl.isAt a = isAtBlacklist a w := by
  rw [isAtBlacklist, hw, List.find?_eq_bind_findIdx?_getElem?, Option.map_bind]
  rfl

/-! ## The map -/

/-- The whole text of an address. -/
def text (a : ObLbAddress) : List UInt8 := a.host ++ 58 :: decimalText a.port

/-- The text of the address fits the key field. -/
def Fits (a : ObLbAddress) : Prop := (text a).length < maxKeyLen

/-- The calls since the last removal of the address. -/
def sinceRemoval (a : ObLbAddress) (calls : List BlackCall) : List BlackCall :=
  (calls.reverse.takeWhile fun
    | .remove b => ¬SameKey (text a) (text b)
    | _ => true).reverse

/-- The time of the first append of the address among these calls. -/
def reported (a : ObLbAddress) (calls : List BlackCall) : Option Nat :=
  (sinceRemoval a calls).findSome? fun
    | .append b => if SameKey (text a) (text b) then some b.blackTime else none
    | _ => none

/-- The entries that are not of the call's address. -/
def others (c : BlackCall) (bs : List Black) : List Black := bs.filter fun b => ¬SameKey (addressKey c.address) b.key

theorem addressKey_eq {a : ObLbAddress} (h : Fits a) : addressKey a = text a :=
  take_of_length_le (Nat.le_sub_one_of_lt h)

theorem isAt_append {a b : ObLbAddress} (w : World) : isAtBlacklist a (appendBlacklist b w) =
      (isAtBlacklist a w).or (if SameKey (addressKey a) (addressKey b) then some b.blackTime else none) := by
  unfold appendBlacklist
  split
  · rename_i hthere
    obtain ⟨e, he, hsame⟩ := hthere
    split
    · rename_i hab
      have hfound : isAtBlacklist a w ≠ none := fun hnone => isAtBlacklist_eq_none hnone e he (hab.trans hsame)
      obtain ⟨t, ht⟩ := Option.ne_none_iff_exists'.1 hfound
      rw [ht, Option.some_or]
    · rw [Option.or_none]
  · simp only [isAtBlacklist, List.find?_append, Option.map_or]
    split <;> simp [*]

theorem isAt_remove {a b : ObLbAddress} {w : World} (h : Unique w.blacklist) :
    isAtBlacklist a (removeBlacklist b w) =
      if SameKey (addressKey a) (addressKey b) then none else isAtBlacklist a w := by
  simp only [isAtBlacklist, removeBlacklist]
  split
  · rename_i hab
    rw [Option.map_eq_none_iff, List.find?_eq_none]
    intro e he hsame
    exact absent_eraseP h e he (hab.symm.trans (by simpa using hsame))
  rename_i hab
  congr 1
  generalize w.blacklist = bs
  -- the entry that goes is not the one looked for
  induction bs with
  | nil => rfl
  | cons e bs ih =>
    by_cases hb : SameKey (addressKey b) e.key
    · have ha : ¬SameKey (addressKey a) e.key := fun ha => hab (ha.trans hb.symm)
      rw [eraseP_cons_of_pos (by simpa using hb), List.find?_cons_of_neg (by simpa using ha)]
    · rw [eraseP_cons_of_neg (by simpa using hb), List.find?_cons, List.find?_cons, ih]

theorem others_remove (b : ObLbAddress) (bs : List Black) :
    others (.remove b) (bs.eraseP fun e => SameKey (addressKey b) e.key) = others (.remove b) bs := by
  induction bs with
  | nil => rfl
  | cons e bs ih =>
    simp only [others, BlackCall.address] at ih ⊢
    by_cases hb : SameKey (addressKey b) e.key
    · simp [hb]
    · simpa [hb] using ih

theorem others_step (h : bl.Roomy) (c : BlackCall) : others c (bl.step c).entries = others c bl.entries := by
  rw [(@entries_step bl h { World.init with blacklist := bl.entries } rfl c).2]
  cases c with
  | append a =>
    simp only [appendBlacklist]
    split
    · rfl
    · simp [others, BlackCall.address, SameKey]
  | remove a => exact others_remove a _
  | isAt a => rfl

/-- What holds of the array after some calls. -/
structure IsMap (calls : List BlackCall) (bl : BlackList) : Prop where
  roomy : bl.Roomy
  unique : Unique bl.entries
  reports : ∀ a, Fits a → bl.isAt a = reported a calls

theorem IsMap.step {calls : List BlackCall} (h : IsMap calls bl) {c : BlackCall} (hfit : Fits c.address) :
    IsMap (calls ++ [c]) (bl.step c) := by
  obtain ⟨w, hw⟩ : ∃ w, w.blacklist = bl.entries := ⟨{ World.init with blacklist := bl.entries }, rfl⟩
  obtain ⟨hroomy, hentries⟩ := entries_step h.roomy hw c
  have hunique : Unique w.blacklist := hw ▸ h.unique
  have hisAt : ∀ a, Fits a → isAtBlacklist a w = reported a calls := fun a ha => by rw [← isAt_eq bl hw, h.reports a ha]
  cases c with
  | append b =>
    refine ⟨hroomy, hentries ▸ (appendBlacklist_spec hunique).1, ?_⟩
    intro a ha
    rw [isAt_eq _ hentries.symm, isAt_append, hisAt a ha, addressKey_eq ha, @addressKey_eq b hfit]
    simp [reported, sinceRemoval]
  | remove b =>
    refine ⟨hroomy, hentries ▸ hunique.sublist eraseP_sublist, ?_⟩
    intro a ha
    rw [isAt_eq _ hentries.symm, isAt_remove hunique, hisAt a ha, addressKey_eq ha, @addressKey_eq b hfit]
    by_cases hab : SameKey (text a) (text b)
    · simp [reported, sinceRemoval, hab]
    · simp [reported, sinceRemoval, hab]
  | isAt b =>
    refine ⟨hroomy, hentries ▸ hunique, ?_⟩
    intro a ha
    rw [isAt_eq _ hentries.symm, hisAt a ha]
    simp [reported, sinceRemoval]

theorem isMap_run (calls : List BlackCall) (hfit : ∀ c ∈ calls, Fits c.address) : IsMap calls (run calls) := by
  induction calls using List.reverseRecOn with
  | nil => exact ⟨⟨fun _ => rfl, nofun⟩, List.Pairwise.nil, fun _ _ => rfl⟩
  | append_singleton calls c ih =>
    rw [run, foldl_append]
    exact (ih fun d hd => hfit d (by simp [hd])).step (hfit c (by simp))

/-- **After every call** no two keys are the same, there is room in the memory, an address is reported
when it was appended since its last removal, with the time of the first append, and one more call
leaves the entries of the other addresses as they are. -/
theorem blacklist_is_map (calls : List BlackCall) (hfit : ∀ c ∈ calls, Fits c.address) :
    Unique (run calls).entries ∧ ((run calls).list ≠ none → (run calls).count < (run calls).max) ∧
      (∀ a, Fits a → (run calls).isAt a = reported a calls) ∧
      ∀ c, others c ((run calls).step c).entries = others c (run calls).entries :=
  have h := isMap_run calls hfit
  ⟨h.unique, h.roomy.2, h.reports, others_step h.roomy⟩

/-- The server `host:1`, found to fail at some time. -/
def downAt (host : List UInt8) (time : Nat) : ObLbAddress := ⟨0, host, 1, 1, .white, false, time, 0, none⟩

/-- A server that failed, came back, and failed twice more under another spelling. -/
def failures : List BlackCall :=
  [.append (downAt [100] 10), .remove (downAt [100] 0), .append (downAt [68] 20), .append (downAt [100] 30)]

theorem failures_reported : (∀ c ∈ failures, Fits c.address) ∧ Unique (run failures).entries ∧
      (run failures).isAt (downAt [100] 0) = some 20 := by
  have hfit : ∀ c ∈ failures, Fits c.address := by unfold Fits; decide
  obtain ⟨hunique, -, hreports, -⟩ := blacklist_is_map failures hfit
  refine ⟨hfit, hunique, ?_⟩
  rw [hreports _ (by unfold Fits; decide)]
  decide

end BlackList

end ObConnector.LoadBalance
