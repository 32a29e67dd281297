/-
# ObConnector.Complex.GlobalHash -- the type caches of the process.

Each connection finds its cache of type descriptions in one global hash table, under a key made of host,
port, user and database, one after the other. Nothing separates the four texts, so connections whose
texts divide one key in different places share a cache: `keys_separate_iff` says which lengths keep them
apart.

`get_complex_hash` searches the table under a read lock and inserts under a write lock taken later. What
it checks again under the write lock is its own result, not the table, so that two calls that both
missed insert both. `one_cache_per_key` says when they do not.
-/
import ObConnector.Lib.Buffer
import ObConnector.Lib.Decimal
import ObConnector.Lib.Runs

namespace ObConnector.Complex

open Lib List

/-! ## Keys -/

/-- What `get_complex_hash` reads of a `MYSQL`; `db` may be NULL. -/
structure Connection where
  host : List UInt8
  port : Nat
  user : List UInt8
  db : Option (List UInt8)

/-- The size of the buffer for the key. -/
def bufferLen : Nat := 200

/-- `ma_safe_utoa` into ten characters, from the back; the last one is NUL. -/
def portText (port : Nat) : Except Fault (List UInt8) :=
  if (decimal port).length ≤ 9 then .ok (decimal port) else .error .writeOutside

/-- The key that `get_complex_hash` builds; `none` when it gives up. -/
def hashKey (c : Connection) : Except Fault (Option (List UInt8)) := do
  let port ← portText c.port
  if c.host.length + port.length + c.user.length + 1 ≥ bufferLen then return none
  match c.db with
  | none => return some (c.host ++ port ++ c.user)
  | some db =>
    if c.host.length + port.length + c.user.length + db.length + 1 ≥ bufferLen then return none
    return some (c.host ++ port ++ c.user ++ db)

/-- The lengths of the four texts; of the database only if there is one. -/
structure Layout where
  host : Nat
  port : Nat
  user : Nat
  db : Option Nat
  deriving DecidableEq

def Layout.total (l : Layout) : Nat := l.host + l.port + l.user + l.db.getD 0

def Connection.layout (c : Connection) : Layout :=
  ⟨c.host.length, (decimal c.port).length, c.user.length, c.db.map List.length⟩

/-- The four texts, one after the other. -/
def Connection.texts (c : Connection) : List UInt8 := c.host ++ decimal c.port ++ c.user ++ c.db.getD []

theorem length_texts (c : Connection) : c.texts.length = c.layout.total := by
  cases hdb : c.db <;> simp [Connection.texts, Connection.layout, Layout.total, hdb, add_assoc]

theorem hashKey_eq_iff (c : Connection) (key : List UInt8) :
    hashKey c = .ok (some key) ↔ c.layout.port ≤ 9 ∧ c.layout.total + 1 < bufferLen ∧ c.texts = key := by
  simp only [hashKey, portText, Connection.layout, Layout.total, Connection.texts]
  by_cases hport : (decimal c.port).length ≤ 9
  · cases hdb : c.db with
    | none =>
      simp only [hport, if_true, ok_bind]
      split <;> simp <;> omega
    | some db =>
      simp only [hport, if_true, ok_bind]
      split
      · simp
        omega
      · split <;> simp <;> omega
  · simp [hport]

theorem decimal_injective : Function.Injective decimal := by
  intro n m h
  have hread : ∀ n, readDecimal 0 (decimal n) = n := fun n => by
    simpa using @readDecimal_decimal n [] nofun
  rw [← hread n, h, hread m]

/-- Texts of the same lengths are found again in their concatenation. -/
theorem eq_of_layout_eq {c c' : Connection} (hlayout : c.layout = c'.layout) (hkey : c.texts = c'.texts) : c = c' := by
  obtain ⟨host, port, user, db⟩ := c
  obtain ⟨host', port', user', db'⟩ := c'
  simp only [Connection.layout, Layout.mk.injEq] at hlayout
  obtain ⟨hhost, hport, huser, hdb⟩ := hlayout
  simp only [Connection.texts, append_assoc] at hkey
  obtain ⟨rfl, hkey1⟩ := append_inj hkey hhost
  obtain ⟨hdecimal, hkey2⟩ := append_inj hkey1 hport
  obtain ⟨rfl, hkey3⟩ := append_inj hkey2 huser
  obtain rfl := decimal_injective hdecimal
  cases db <;> cases db' <;> simp_all

/-- A connection whose texts are all made of the digit one. -/
def ones (l : Layout) : Connection :=
  ⟨List.replicate l.host 49, Nat.ofDigits 10 (List.replicate l.port 1), List.replicate l.user 49,
    l.db.map fun n => List.replicate n 49⟩

theorem decimal_ones {n : Nat} (hn : 0 < n) :
    decimal (Nat.ofDigits 10 (List.replicate n 1)) = List.replicate n 49 := by
  have hdigits : Nat.digits 10 (Nat.ofDigits 10 (List.replicate n 1)) = List.replicate n 1 :=
    Nat.digits_ofDigits 10 (by decide) _ (fun d hd => by rw [eq_of_mem_replicate hd]; decide)
      (fun h => by rw [getLast_replicate]; decide)
  rw [decimal, if_neg, hdigits, reverse_replicate, map_replicate]
  · rfl
  · intro h
    rw [h] at hdigits
    exact absurd (congrArg List.length hdigits) (by simp; omega)

/-- Some connection of these lengths is accepted. -/
def Layout.Possible (l : Layout) : Prop := ∃ c key, c.layout = l ∧ hashKey c = .ok (some key)

theorem hashKey_ones {l : Layout} (h : l.Possible) :
    (ones l).layout = l ∧ hashKey (ones l) = .ok (some (List.replicate l.total 49)) := by
  obtain ⟨c, key, rfl, hkey⟩ := h
  have hpos : 0 < c.layout.port := length_pos_iff.2 (decimal_ne_nil _)
  have hlayout : (ones c.layout).layout = c.layout := by
    obtain ⟨host, port, user, db⟩ := c
    simp only [ones, Connection.layout] at hpos ⊢
    rw [decimal_ones hpos]
    cases db <;> simp
  obtain ⟨hport, htotal, -⟩ := (hashKey_eq_iff c key).1 hkey
  refine ⟨hlayout, (hashKey_eq_iff _ _).2 ⟨by rwa [hlayout], by rwa [hlayout], ?_⟩⟩
  generalize c.layout = l at hpos
  simp only [Connection.texts, ones, decimal_ones hpos, Layout.total]
  cases l.db <;> simp [replicate_append_replicate]

/-- **Which connections have caches of their own.** Accepted connections that differ have different keys
if their keys differ in length, or if all four texts have the same lengths; other lengths mix some up. -/
theorem keys_separate_iff (l l' : Layout) (h : l.Possible) (h' : l'.Possible) :
    (∀ c c' key key', c.layout = l → c'.layout = l' → c ≠ c' → hashKey c = .ok (some key) →
      hashKey c' = .ok (some key') → key ≠ key') ↔ l.total ≠ l'.total ∨ l = l' := by
  constructor
  · intro hsep
    by_contra hcon
    obtain ⟨htotal, hne⟩ := not_or.1 hcon
    obtain ⟨hl, hkey⟩ := hashKey_ones h
    obtain ⟨hl', hkey'⟩ := hashKey_ones h'
    refine hsep _ _ _ _ hl hl' (fun heq => hne ?_) hkey hkey' (by rw [not_not.1 htotal])
    rw [← hl, heq, hl']
  · rintro hcase c c' key key' rfl rfl hne hkey hkey' rfl
    rw [hashKey_eq_iff] at hkey hkey'
    rcases hcase with htotal | hsame
    · rw [← length_texts, ← length_texts, hkey.2.2, hkey'.2.2] at htotal
      exact htotal rfl
    · exact hne (eq_of_layout_eq hsame (hkey.2.2.trans hkey'.2.2.symm))

/-- A short host, a port of one digit and a short user. -/
def small : Layout := ⟨1, 1, 1, none⟩

theorem small_keys_separate :
    small.Possible ∧ ∀ c c' key key', c.layout = small → c'.layout = small → c ≠ c' → hashKey c = .ok (some key) →
      hashKey c' = .ok (some key') → key ≠ key' := by
  have h : small.Possible := by
    refine ⟨⟨[104], 1, [117], none⟩, [104, 49, 117], ?_, (hashKey_eq_iff _ _).2 ?_⟩ <;>
      simp [small, Connection.layout, Connection.texts, Layout.total, decimal, digitByte, bufferLen]
  exact ⟨h, (keys_separate_iff small small h h).2 (.inr rfl)⟩

/-- Port 12 and user `3`, port 123 and no user name: one key. -/
theorem user_taken_for_port :
    ∃ c c' : Connection, c.port = 12 ∧ c'.port = 123 ∧ hashKey c = .ok (some [104, 49, 50, 51]) ∧
      hashKey c' = .ok (some [104, 49, 50, 51]) := by
  refine ⟨⟨[104], 12, [51], none⟩, ⟨[104], 123, [], none⟩, rfl, rfl, ?_, ?_⟩ <;> rw [hashKey_eq_iff] <;>
    simp [Connection.layout, Connection.texts, Layout.total, decimal, digitByte, bufferLen]

/-! ## Calls side by side -/

/-- The variable `global_hash`, and the entries of the table with the `COMPLEX_HASH` of each. -/
inductive GlobalHash where
  | null
  | freed
  | live (entries : List (List UInt8 × Nat))

def GlobalHash.entries : GlobalHash → List (List UInt8 × Nat)
  | live entries => entries
  | _ => []

/-- How far a call of `get_complex_hash` has come. -/
inductive CallState where
  | begun
  | sawNull
  | keyed
  | missed
  | returned (complexHash : Nat)
  | failed

/-- What the memory allows a step to do: everything, nothing, or not the array of a new table. -/
inductive Memory where
  | enough
  | lacking
  | lackingArray

/-- The table, the number of caches made so far, and the calls. -/
structure Caches where
  globalHash : GlobalHash
  made : Nat
  calls : Nat → CallState

def Caches.start : Caches := ⟨.null, 0, fun _ => .begun⟩

def Caches.goto (s : Caches) (i : Nat) (c : CallState) : Caches := { s with calls := Function.update s.calls i c }

/-- The next step of a call: the first look at `global_hash`, `global_hash_init` and the second look under
the write lock, the search under the read lock, or `complex_hash_init` under the write lock. -/
def callStep (key : Nat → List UInt8) (s : Caches) (e : Nat × Memory) : Except Fault Caches :=
  match s.calls e.1 with
  | .begun =>
    match s.globalHash with
    | .null => .ok (s.goto e.1 .sawNull)
    | _ => .ok (s.goto e.1 .keyed)
  | .sawNull =>
    match s.globalHash, e.2 with
    | .null, .enough => .ok ({ s with globalHash := .live [] }.goto e.1 .keyed)
    | .null, .lacking => .ok (s.goto e.1 .failed)
    -- `global_hash_init` frees the table and leaves the pointer
    | .null, .lackingArray => .ok ({ s with globalHash := .freed }.goto e.1 .failed)
    | _, _ => .ok (s.goto e.1 .keyed)
  | .keyed =>
    match s.globalHash with
    | .live entries =>
      match entries.find? fun entry => entry.1 = key e.1 with
      | some entry => .ok (s.goto e.1 (.returned entry.2))
      | none => .ok (s.goto e.1 .missed)
    | _ => .error .readOutside
  | .missed =>
    match s.globalHash, e.2 with
    | .live entries, .enough =>
      .ok (Caches.goto { s with globalHash := .live (entries ++ [(key e.1, s.made)]), made := s.made + 1 } e.1
        (.returned s.made))
    | .live _, _ => .ok (s.goto e.1 .failed)
    | _, _ => .error .readOutside
  | .returned _ | .failed => .ok s

/-- No call searches for a key that another call has missed and not yet inserted, and the array of the
table is allocated by the call that makes the table. -/
def Quiet (key : Nat → List UInt8) (s : Caches) (e : Nat × Memory) : Prop :=
  match s.calls e.1 with
  | .keyed => ∀ j, key j = key e.1 → s.calls j ≠ .missed
  | .sawNull => s.globalHash = .null → e.2 ≠ .lackingArray
  | _ => True

/-- What quiet steps keep: the entries have different keys, the caches returned are in the table, and of
each key that is missing at most one call knows. -/
structure Separate (key : Nat → List UInt8) (s : Caches) : Prop where
  notFreed : s.globalHash ≠ .freed
  live : ∀ i, s.calls i = .keyed ∨ s.calls i = .missed → s.globalHash ≠ .null
  nodup : (s.globalHash.entries.map Prod.fst).Nodup
  returned : ∀ i c, s.calls i = .returned c → (key i, c) ∈ s.globalHash.entries
  missed : ∀ i, s.calls i = .missed → key i ∉ s.globalHash.entries.map Prod.fst
  alone : ∀ i j, s.calls i = .missed → s.calls j = .missed → key i = key j → i = j

variable {key : Nat → List UInt8} {s : Caches} {i : Nat}

/-- A call moves on, the table stays. -/
theorem Separate.goto (h : Separate key s) {c : CallState} (hlive : c = .keyed ∨ c = .missed → s.globalHash ≠ .null)
    (hreturned : ∀ n, c = .returned n → (key i, n) ∈ s.globalHash.entries)
    (hmissed : c = .missed → key i ∉ s.globalHash.entries.map Prod.fst ∧ ∀ j, key j = key i → s.calls j ≠ .missed) :
    Separate key (s.goto i c) := by
  have hcalls : ∀ j, (s.goto i c).calls j = c ∧ j = i ∨ (s.goto i c).calls j = s.calls j ∧ j ≠ i := by
    intro j
    by_cases hj : j = i
    · exact .inl ⟨by rw [hj]; exact Function.update_self i c s.calls, hj⟩
    · exact .inr ⟨by exact Function.update_of_ne hj c s.calls, hj⟩
  refine ⟨h.notFreed, fun j hj => ?_, h.nodup, fun j n hj => ?_, fun j hj => ?_, fun j k hj hk hkey => ?_⟩
  · rcases hcalls j with ⟨heq, -⟩ | ⟨heq, -⟩ <;> rw [heq] at hj
    · exact hlive hj
    · exact h.live j hj
  · rcases hcalls j with ⟨heq, rfl⟩ | ⟨heq, -⟩ <;> rw [heq] at hj
    · exact hreturned n hj
    · exact h.returned j n hj
  · rcases hcalls j with ⟨heq, rfl⟩ | ⟨heq, -⟩ <;> rw [heq] at hj
    · exact (hmissed hj).1
    · exact h.missed j hj
  · rcases hcalls j with ⟨heq, rfl⟩ | ⟨heq, -⟩ <;> rcases hcalls k with ⟨heq', rfl⟩ | ⟨heq', -⟩ <;>
      rw [heq] at hj <;> rw [heq'] at hk
    · exact absurd hk ((hmissed hj).2 k hkey.symm)
    · exact absurd hj ((hmissed hk).2 j hkey)
    · exact h.alone j k hj hk hkey

/-- The table gets an entry that nobody is about to insert. -/
theorem Separate.insert (h : Separate key s) {k : List UInt8} {entries : List (List UInt8 × Nat)}
    (hlive : s.globalHash = .live entries) (hnew : k ∉ entries.map Prod.fst)
    (halone : ∀ j, key j = k → s.calls j ≠ .missed) (n m : Nat) :
    Separate key { s with globalHash := .live (entries ++ [(k, n)]), made := m } := by
  have hentries : s.globalHash.entries = entries := by rw [hlive]; rfl
  refine ⟨nofun, fun _ _ => nofun, ?_, fun j c hj => ?_, fun j hj => ?_, h.alone⟩
  · simp only [GlobalHash.entries, map_append]
    rw [nodup_append]
    exact ⟨hentries ▸ h.nodup, nodup_singleton k, fun a ha b hb => by grind⟩
  · exact mem_append_left _ (hentries ▸ h.returned j c hj)
  · have hold := hentries ▸ h.missed j hj
    simp only [GlobalHash.entries, map_append, map_singleton, mem_append, mem_singleton]
    tauto

/-- One quiet step. -/
theorem Separate.step (h : Separate key s) (e : Nat × Memory) (hquiet : Quiet key s e) :
    ∃ s', callStep key s e = .ok s' ∧ Separate key s' := by
  unfold callStep
  unfold Quiet at hquiet
  cases hcall : s.calls e.1 with
  | begun =>
    cases hglobal : s.globalHash with
    | null => exact ⟨_, rfl, h.goto nofun nofun nofun⟩
    | freed => exact absurd hglobal h.notFreed
    | live entries => exact ⟨_, rfl, h.goto (fun _ => by rw [hglobal]; nofun) nofun nofun⟩
  | sawNull =>
    rw [hcall] at hquiet
    cases hglobal : s.globalHash with
    | null =>
      have hentries : s.globalHash.entries = [] := by rw [hglobal]; rfl
      cases hmemory : e.2 with
      | enough =>
        have hempty : Separate key { s with globalHash := .live [] } :=
          ⟨nofun, fun _ _ => nofun, nodup_nil, fun j c hj => hentries ▸ h.returned j c hj,
            fun _ _ => not_mem_nil, h.alone⟩
        exact ⟨_, rfl, hempty.goto (fun _ => nofun) nofun nofun⟩
      | lacking => exact ⟨_, rfl, h.goto nofun nofun nofun⟩
      | lackingArray => exact absurd hmemory (hquiet hglobal)
    | freed => exact absurd hglobal h.notFreed
    | live entries => exact ⟨_, rfl, h.goto (fun _ => by rw [hglobal]; nofun) nofun nofun⟩
  | keyed =>
    rw [hcall] at hquiet
    cases hglobal : s.globalHash with
    | null => exact absurd hglobal (h.live e.1 (.inl hcall))
    | freed => exact absurd hglobal h.notFreed
    | live entries =>
      have hentries : s.globalHash.entries = entries := by rw [hglobal]; rfl
      dsimp only
      cases hfound : entries.find? fun entry => entry.1 = key e.1 with
      | some entry =>
        have hkey : entry.1 = key e.1 := by simpa using List.find?_some hfound
        refine ⟨_, rfl, h.goto nofun ?_ nofun⟩
        rintro n ⟨⟩
        rw [hentries, ← hkey]
        exact List.mem_of_find?_eq_some hfound
      | none =>
        refine ⟨_, rfl, h.goto (fun _ => by rw [hglobal]; nofun) nofun fun _ => ⟨?_, hquiet⟩⟩
        rw [hentries]
        intro hmem
        obtain ⟨entry, hentry, heq⟩ := mem_map.1 hmem
        simpa [heq] using List.find?_eq_none.1 hfound entry hentry
  | missed =>
    cases hglobal : s.globalHash with
    | null => exact absurd hglobal (h.live e.1 (.inr hcall))
    | freed => exact absurd hglobal h.notFreed
    | live entries =>
      have hfailed : Separate key (s.goto e.1 .failed) := h.goto nofun nofun nofun
      cases e.2 with
      | lacking | lackingArray => exact ⟨_, rfl, hfailed⟩
      | enough =>
        have hnew := h.missed e.1 hcall
        rw [hglobal] at hnew
        have halone : ∀ j, key j = key e.1 → (s.goto e.1 .failed).calls j ≠ .missed := by
          intro j hj hmissed
          by_cases hje : j = e.1
          · simp [Caches.goto, hje] at hmissed
          · exact hje (h.alone j e.1 (by simpa [Caches.goto, hje] using hmissed) hcall hj)
        have hinsert := hfailed.insert hglobal hnew halone s.made (s.made + 1)
        simpa [Caches.goto] using hinsert.goto nofun (i := e.1) (c := .returned s.made) (fun n hn => by
          cases hn; exact mem_append_right _ (mem_singleton.2 rfl)) nofun
  | returned c => exact ⟨s, rfl, h⟩
  | failed => exact ⟨s, rfl, h⟩

/-- **One cache per key**, for any number of calls in any order of their steps, as long as the steps are
quiet: no entry is there twice, and calls with the same key return the same cache. -/
theorem one_cache_per_key (key : Nat → List UInt8) (events : List (Nat × Memory))
    (hquiet : Along (callStep key) (Quiet key) Caches.start events) :
    ∃ s, runAll (callStep key) Caches.start events = .ok s ∧ (s.globalHash.entries.map Prod.fst).Nodup ∧
      ∀ i j c c', s.calls i = .returned c → s.calls j = .returned c' → key i = key j → c = c' := by
  have hstart : Separate key Caches.start :=
    ⟨nofun, (by rintro i (hi | hi) <;> cases hi), nodup_nil, nofun, nofun, nofun⟩
  obtain ⟨s, hrun, hs⟩ := runAll_invariant (fun s e hs hq => Separate.step hs e hq) hstart hquiet
  refine ⟨s, hrun, hs.nodup, ?_⟩
  intro i j c c' hi hj hkey
  have hmem := hs.returned i c hi
  rw [hkey] at hmem
  exact congrArg Prod.snd (inj_on_of_nodup_map hs.nodup hmem (hs.returned j c' hj) rfl)

/-- Two calls of one key that both see no table: the second one searches when the first one has inserted. -/
def twoCalls : List (Nat × Memory) :=
  [(0, .enough), (1, .enough), (0, .enough), (0, .enough), (1, .enough), (0, .enough), (1, .enough)]

/-- The second call gets the cache of the first one. -/
theorem second_call_finds :
    ∃ s c, runAll (callStep fun _ => [107]) Caches.start twoCalls = .ok s ∧
      (s.globalHash.entries.map Prod.fst).Nodup ∧ s.calls 0 = .returned c ∧ s.calls 1 = .returned c := by
  have hquiet : Along (callStep fun _ => [107]) (Quiet fun _ => [107]) Caches.start twoCalls := by
    -- only the two searches ask for something: nobody has missed the key and not yet inserted it
    have hcalls : ∀ {f : Nat → CallState}, f 0 ≠ .missed → f 1 ≠ .missed → (∀ j, 2 ≤ j → f j = .begun) →
        ∀ j, f j ≠ .missed := by
      intro f h0 h1 hrest j
      match j with
      | 0 => exact h0
      | 1 => exact h1
      | j + 2 => exact fun h => by cases (hrest _ (by omega)).symm.trans h
    unfold twoCalls
    refine ⟨trivial, ?_⟩
    rintro _ ⟨⟩
    refine ⟨trivial, ?_⟩
    rintro _ ⟨⟩
    refine ⟨fun _ h => (by cases h), ?_⟩
    rintro _ ⟨⟩
    refine ⟨fun j _ => ?_, ?_⟩
    · exact hcalls (fun h => by cases h) (fun h => by cases h)
        (fun j hj => by simp [Caches.goto, Caches.start, show j ≠ 0 by omega, show j ≠ 1 by omega]) j
    rintro _ ⟨⟩
    refine ⟨fun _ h => (by cases h), ?_⟩
    rintro _ ⟨⟩
    refine ⟨trivial, ?_⟩
    rintro _ ⟨⟩
    refine ⟨fun j _ => ?_, fun _ _ => trivial⟩
    exact hcalls (fun h => by cases h) (fun h => by cases h)
      (fun j hj => by simp [Caches.goto, Caches.start, show j ≠ 0 by omega, show j ≠ 1 by omega]) j
  obtain ⟨s, hrun, hnodup, hsame⟩ := one_cache_per_key (fun _ => [107]) _ hquiet
  obtain ⟨s', hrun', h0, c, h1⟩ : ∃ s', runAll (callStep fun _ => [107]) Caches.start twoCalls = .ok s' ∧
      s'.calls 0 = .returned 0 ∧ ∃ c, s'.calls 1 = .returned c := ⟨_, rfl, rfl, _, rfl⟩
  obtain rfl : s' = s := Except.ok.inj (hrun'.symm.trans hrun)
  obtain rfl := hsame 0 1 0 c h0 h1 rfl
  exact ⟨s', 0, hrun, hnodup, h0, h1⟩

/-- Two calls search before either inserts. -/
theorem both_calls_insert : ∃ s, runAll (callStep fun _ => [107]) Caches.start
        [(0, .enough), (0, .enough), (1, .enough), (0, .enough), (1, .enough), (0, .enough), (1, .enough)] = .ok s ∧
      s.globalHash.entries = [([107], 0), ([107], 1)] ∧ s.calls 0 = .returned 0 ∧ s.calls 1 = .returned 1 :=
  ⟨_, rfl, rfl, rfl, rfl⟩

end ObConnector.Complex
