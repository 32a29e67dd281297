/-
# ObConnector.Tns.Print -- pairs as text.

How the entries of a node are printed: as `(KEY=value)`, with blanks between the tokens and the key in upper
or lower case, and in any arrangement that keeps the entries of one kind in their order. A `Form` says what
the entries of a node are, what they look like and what they do to the node.

What is printed is read back, whatever stands behind it: an entry is a pair (`step_of_prints`), and the
entries of a node are a chain of pairs that leads to what they do one after the other (`Form.Reads.node`).
-/
import ObConnector.Lib.Arrange
import ObConnector.Tns.Grammar

namespace ObConnector.Tns

open Lib List
open Relation (ReflTransGen TransGen)

/-! ## Tokens -/

/-- Blanks between tokens. -/
def Gap (g : List UInt8) : Prop := ∀ c ∈ g, IsBlank c

instance (g : List UInt8) : Decidable (Gap g) := inferInstanceAs (Decidable (∀ _ ∈ _, _))

theorem gap_nil : Gap [] := nofun

/-- A byte that ends a key. -/
def IsDelimiter (c : UInt8) : Prop := IsBlank c ∨ c = 61 ∨ c = 40 ∨ c = 41

instance (c : UInt8) : Decidable (IsDelimiter c) := inferInstanceAs (Decidable (_ ∨ _))

/-- A byte that cannot stand in a key without quotes. -/
def IsSpecial (c : UInt8) : Prop := IsDelimiter c ∨ c = 34 ∨ c = 35

instance (c : UInt8) : Decidable (IsSpecial c) := inferInstanceAs (Decidable (_ ∨ _))

/-- A text that ends the key in front of it. -/
def Delimits (tail : List UInt8) : Prop := ∃ c rest, tail = c :: rest ∧ IsDelimiter c

/-- Behind blanks there is a closing parenthesis. -/
def Closing (tail : List UInt8) : Prop := ∃ g rest, Gap g ∧ tail = g ++ 41 :: rest

variable {g : List UInt8}

/-- Blanks and a delimiter delimit. -/
theorem delimits_gap (hg : Gap g) {c : UInt8} (hc : IsDelimiter c) (rest : List UInt8) :
    Delimits (g ++ c :: rest) := by
  cases g with
  | nil => exact ⟨c, rest, rfl, hc⟩
  | cons d g => exact ⟨d, g ++ c :: rest, rfl, .inl (hg d mem_cons_self)⟩

variable {tail : List UInt8}

theorem Closing.delimits (h : Closing tail) : Delimits tail := by
  obtain ⟨g, rest, hg, rfl⟩ := h
  exact delimits_gap hg (by decide) rest

section Scan

variable {quoted : Bool} {stored : List UInt8}

theorem not_full (h : stored.length < tnsKeySize) : (KeyScan.mk quoted stored).full = false :=
  decide_eq_false (ne_of_lt h)

/-- Plain bytes, and all but the quote inside quotes, are stored. -/
theorem scan_stored {s : List UInt8} (hs : ∀ c ∈ s, c ≠ 34 ∧ (quoted = true ∨ ¬IsDelimiter c))
    (hlen : (stored ++ s).length < tnsKeySize) (tail : List UInt8) :
    scan keyStep ⟨quoted, stored⟩ (s ++ tail) = scan keyStep ⟨quoted, stored ++ s⟩ tail := by
  induction s generalizing stored with
  | nil => rw [append_nil, nil_append]
  | cons c s ih =>
    obtain ⟨hquote, hplain⟩ := hs c mem_cons_self
    have hstored : stored.length < tnsKeySize := by
      rw [length_append] at hlen
      omega
    have hstep : keyStep ⟨quoted, stored⟩ c = (⟨quoted, stored ++ [c]⟩, true) := by
      rw [keyStep, if_neg (by rw [not_full hstored]; exact Bool.false_ne_true), if_neg hquote, if_neg]
      rintro ⟨hout, hdelimiter⟩
      rcases hplain with hin | hplain
      · exact Bool.false_ne_true (hout.symm.trans hin)
      · exact hplain hdelimiter
    rw [cons_append, scan, hstep,
      ih (fun d hd => hs d (mem_cons_of_mem c hd)) (by rwa [append_assoc]), append_assoc]
    rfl

theorem scan_quote (h : stored.length < tnsKeySize) (tail : List UInt8) :
    scan keyStep ⟨quoted, stored⟩ (34 :: tail) = scan keyStep ⟨!quoted, stored⟩ tail := by
  have hstep : keyStep ⟨quoted, stored⟩ 34 = (⟨!quoted, stored⟩, true) := by
    rw [keyStep, if_neg (by rw [not_full h]; exact Bool.false_ne_true), if_pos rfl]
  rw [scan, hstep, if_pos rfl]

theorem scan_delimits (h : stored.length < tnsKeySize) (htail : Delimits tail) :
    scan keyStep ⟨false, stored⟩ tail = (⟨false, stored⟩, tail) := by
  obtain ⟨c, rest, rfl, hc⟩ := htail
  have hquote : c ≠ 34 := by
    rintro rfl
    exact absurd hc (by decide)
  have hstep : keyStep ⟨false, stored⟩ c = (⟨false, stored⟩, false) := by
    rw [keyStep, if_neg (by rw [not_full h]; exact Bool.false_ne_true), if_neg hquote, if_pos ⟨rfl, hc⟩]
  rw [scan, hstep, if_neg Bool.false_ne_true]

end Scan

/-- A byte that is neither a delimiter nor the start of a comment starts a key. -/
theorem tokenAt_key (hg : Gap g) {c : UInt8} (hc : ¬IsDelimiter c) (hcomment : c ≠ 35) (rest : List UInt8) :
    skipBlanks (g ++ c :: rest) = c :: rest ∧ tokenAt (g ++ c :: rest) = some .key := by
  have hstep : blankStep false c = (false, false) := by
    rw [blankStep, if_neg Bool.false_ne_true, if_neg fun hblank => hc (.inl hblank), if_neg hcomment]
  have hskip : skipBlanks (g ++ c :: rest) = c :: rest := by
    rw [skipBlanks_append hg, skipBlanks_of_stop hstep]
  refine ⟨hskip, ?_⟩
  have htype : tokenTypeOf c = .key := by
    rw [tokenTypeOf, if_neg fun h => hc (.inr (.inl h)), if_neg fun h => hc (.inr (.inr (.inl h))),
      if_neg fun h => hc (.inr (.inr (.inr h)))]
  rw [tokenAt, hskip, ← htype]
  rfl

theorem Delimits.ne_nil (h : Delimits tail) : tail ≠ [] := by
  obtain ⟨c, rest, rfl, -⟩ := h
  exact cons_ne_nil c rest

variable {k : List UInt8}

/-- A word is read as a key. -/
theorem key_plain (hg : Gap g) (hne : k ≠ []) (hplain : ∀ c ∈ k, ¬IsSpecial c) (hlen : k.length < tnsKeySize)
    (htail : Delimits tail) : Key k (g ++ k ++ tail) tail := by
  obtain ⟨c, cs, rfl⟩ := exists_cons_of_ne_nil hne
  have hc := hplain c mem_cons_self
  obtain ⟨hskip, htoken⟩ :=
    tokenAt_key hg (fun h => hc (.inl h)) (fun h => hc (.inr (.inr h))) (cs ++ tail)
  have htext : g ++ (c :: cs) ++ tail = g ++ c :: (cs ++ tail) := by rw [append_assoc, cons_append]
  have hscan : scan keyStep ⟨false, []⟩ (c :: (cs ++ tail)) = (⟨false, c :: cs⟩, tail) := by
    rw [← cons_append, scan_stored (fun d hd => ⟨fun h => hplain d hd (.inr (.inl h)),
      .inr fun h => hplain d hd (.inl h)⟩) hlen, nil_append, scan_delimits hlen htail]
  rw [htext]
  exact ⟨htoken, by rw [hskip, hscan], by rw [hskip, hscan], htail.ne_nil⟩

/-- A text in quotes is read as a key. -/
theorem key_quoted {s : List UInt8} (hg : Gap g) (hs : 34 ∉ s) (hlen : s.length < tnsKeySize)
    (htail : Delimits tail) : Key s (g ++ 34 :: (s ++ [34]) ++ tail) tail := by
  have htext : g ++ 34 :: (s ++ [34]) ++ tail = g ++ 34 :: (s ++ 34 :: tail) := by
    rw [append_assoc, cons_append, append_assoc, singleton_append]
  obtain ⟨hskip, htoken⟩ := tokenAt_key hg (show ¬IsDelimiter 34 by decide) (by decide) (s ++ 34 :: tail)
  have hscan : scan keyStep ⟨false, []⟩ (34 :: (s ++ 34 :: tail)) = (⟨false, s⟩, tail) := by
    have hlen' : ([] ++ s).length < tnsKeySize := hlen
    rw [scan_quote (by decide), Bool.not_false, scan_stored (fun c hc => ⟨fun h => hs (h ▸ hc), .inl rfl⟩) hlen',
      nil_append, scan_quote hlen]
    exact scan_delimits hlen htail
  rw [htext]
  exact ⟨htoken, by rw [hskip, hscan], by rw [hskip, hscan], htail.ne_nil⟩

/-- A sign behind blanks. -/
theorem sign_gap (hg : Gap g) {c : UInt8} (hc : ¬IsBlank c) (hcomment : c ≠ 35) (rest : List UInt8) :
    Sign (tokenTypeOf c) (g ++ c :: rest) rest := by
  have hstep : blankStep false c = (false, false) := by
    rw [blankStep, if_neg Bool.false_ne_true, if_neg hc, if_neg hcomment]
  have hskip : skipBlanks (g ++ c :: rest) = c :: rest := by
    rw [skipBlanks_append hg, skipBlanks_of_stop hstep]
  exact ⟨by rw [tokenAt, hskip]; rfl, by rw [hskip]; rfl⟩

/-! ## Words and numbers -/

/-- A word that can be written without quotes. -/
def PlainWord (word : String) : Prop :=
  (∀ d ∈ (ascii word).map toLower, ¬IsSpecial d) ∧ ascii word ≠ [] ∧ (ascii word).length < tnsKeySize

instance (word : String) : Decidable (PlainWord word) := inferInstanceAs (Decidable (_ ∧ _))

variable {word : String}

theorem IsWord.plain (h : IsWord k word) (hword : PlainWord word) : ∀ c ∈ k, ¬IsSpecial c := by
  intro c hc hspecial
  have hlower : toLower c = c := by
    rcases hspecial with ((rfl | rfl | rfl | rfl) | rfl | rfl | rfl) | rfl | rfl <;> decide
  have hmem : toLower c ∈ k.map toLower := mem_map_of_mem hc
  rw [h, hlower] at hmem
  exact hword.1 c hmem hspecial

/-- Such a word is read as a key, in upper or lower case. -/
theorem key_word (hg : Gap g) (h : IsWord k word) (hword : PlainWord word) (htail : Delimits tail) :
    Key k (g ++ k ++ tail) tail ∧ ShortKey k := by
  have hlen : k.length < tnsKeySize := h.length.trans_lt hword.2.2
  have hne : k ≠ [] := by
    rintro rfl
    exact hword.2.1 (map_eq_nil_iff.1 h.symm)
  exact ⟨key_plain hg hne (h.plain hword) hlen htail, hlen⟩

/-- `strncasecmp` does not see the case of a text. -/
theorem strncasecmpSame_congr {as as' : List UInt8} (h : as.map toLower = as'.map toLower) (bs : List UInt8)
    (n : Nat) : strncasecmpSame as bs n = strncasecmpSame as' bs n := by
  unfold strncasecmpSame
  induction n generalizing as as' bs with
  | zero => rfl
  | succ n ih =>
    have hhead : toLower (as.headD 0) = toLower (as'.headD 0) := by
      cases as <;> cases as' <;> simp_all
    have hzero : as.headD 0 = 0 ↔ as'.headD 0 = 0 := by
      rw [← toLower_eq_zero_iff, hhead, toLower_eq_zero_iff]
    have htail : as.tail.map toLower = as'.tail.map toLower := by
      rw [map_tail, map_tail, h]
    rw [strnSame, strnSame, hhead]
    simp only [hzero, ih htail]

theorem IsWord.begins_eq (h : IsWord k word) (word' : String) : Begins k word' = Begins (ascii word) word' := by
  rw [Begins, h.length]
  exact strncasecmpSame_congr h _ _

theorem IsWord.keyTypeOf (h : IsWord k word) : Tns.keyTypeOf k = Tns.keyTypeOf (ascii word) := by
  rw [Tns.keyTypeOf, h.length]
  congr 1
  funext found entry
  rw [strncasecmpSame_congr h]

/-- A number that `strtoll10` reads: from `2 ^ 63` on it gives the largest `long long`. -/
structure Number where
  toNat : Nat
  small : toNat < 2 ^ 63

theorem decimal_not_special (n : Nat) : ∀ c ∈ decimal n, ¬IsSpecial c := by
  intro c hc
  have hdigit := isDigit_of_mem_decimal hc
  rintro (((rfl | rfl | rfl | rfl) | rfl | rfl | rfl) | rfl | rfl) <;> exact absurd hdigit (by decide)

theorem Number.length_decimal (n : Number) : (decimal n.toNat).length < tnsKeySize := by
  have hsize : tnsKeySize = 256 := rfl
  have hlen := length_decimal_le (show n.toNat < 10 ^ 20 by have := n.small; omega)
  omega

/-! ## Pairs -/

/-- The spellings of a key. -/
def keyWords (keyType : KeyType) : List String :=
  ((List.range 21).flatMap tnsKeyArray).filterMap fun entry => if entry.2 = keyType then some entry.1 else none

theorem keyWords_spec {keyType : KeyType} (h : word ∈ keyWords keyType) :
    keyTypeOf (ascii word) = keyType ∧ keyType ≠ .errorKey ∧ PlainWord word := by
  have htable : ∀ entry ∈ (List.range 21).flatMap tnsKeyArray, keyTypeOf (ascii entry.1) = entry.2 ∧
      entry.2 ≠ .errorKey ∧ PlainWord entry.1 := by decide +kernel
  obtain ⟨entry, hentry, hsome⟩ := mem_filterMap.1 h
  split at hsome
  · rename_i hkeyType
    cases hsome
    rw [← hkeyType]
    exact htable entry hentry
  · cases hsome

/-- A pair as text: the kinds of its key, and what its value looks like. -/
def PrintsPair (kinds : List KeyType) (prints : List UInt8 → Prop) (text : List UInt8) : Prop :=
  ∃ keyType ∈ kinds, ∃ word ∈ keyWords keyType, ∃ k g₁ g₂ g₃ g₄ v, IsWord k word ∧ Gap g₁ ∧ Gap g₂ ∧ Gap g₃ ∧
    Gap g₄ ∧ prints v ∧ text = g₁ ++ 40 :: (g₂ ++ k ++ (g₃ ++ 61 :: (v ++ (g₄ ++ [41]))))

theorem PrintsPair.opens {kinds : List KeyType} {prints : List UInt8 → Prop} {text : List UInt8}
    (h : PrintsPair kinds prints text) :
    ∃ keyType ∈ kinds, ∃ v g, prints v ∧ Gap g ∧
      ∀ rest, Opens ShortKey keyType (text ++ rest) (v ++ (g ++ 41 :: rest)) := by
  obtain ⟨keyType, hkind, word, hword, k, g₁, g₂, g₃, g₄, v, hk, hg1, hg2, hg3, hg4, hv, rfl⟩ := h
  obtain ⟨hkeyType, hknown, hplain⟩ := keyWords_spec hword
  refine ⟨keyType, hkind, v, g₄, hv, hg4, fun rest => ?_⟩
  obtain ⟨hkey, hshort⟩ := key_word hg2 hk hplain (delimits_gap hg3 (show IsDelimiter 61 by decide) (v ++ (g₄ ++ 41 :: rest)))
  refine ⟨k, g₂ ++ k ++ (g₃ ++ 61 :: (v ++ (g₄ ++ 41 :: rest))), g₃ ++ 61 :: (v ++ (g₄ ++ 41 :: rest)), ?_, hkey, hshort,
    hk.keyTypeOf.trans hkeyType, hknown, ?_⟩
  · have htext : g₁ ++ 40 :: (g₂ ++ k ++ (g₃ ++ 61 :: (v ++ (g₄ ++ [41])))) ++ rest =
        g₁ ++ 40 :: (g₂ ++ k ++ (g₃ ++ 61 :: (v ++ (g₄ ++ 41 :: rest)))) := by
      simp only [append_assoc, cons_append, nil_append]
    rw [htext]
    exact sign_gap hg1 (by decide) (by decide) _
  · exact sign_gap hg3 (by decide) (by decide) _

/-- **A printed pair is a pair.** -/
theorem step_of_prints {β : Type} {value : Value β} {kinds : List KeyType} {prints : List UInt8 → Prop}
    {text : List UInt8} {b b' : β} (h : PrintsPair kinds prints text)
    (hread : ∀ keyType ∈ kinds, ∀ v tail, prints v → Closing tail → value keyType (b, v ++ tail) (b', tail))
    (rest : List UInt8) : Step ShortKey value (b, text ++ rest) (b', rest) := by
  obtain ⟨keyType, hkind, v, g, hv, hg, hopens⟩ := h.opens
  exact ⟨keyType, _, g ++ 41 :: rest, hopens rest, hread keyType hkind v _ hv ⟨g, rest, hg, rfl⟩,
    sign_gap hg (by decide) (by decide) rest⟩

section Leaves

variable {β : Type} {v tail : List UInt8}

/-- A word as a value. -/
def PrintsWord (word : String) (v : List UInt8) : Prop := ∃ g k, Gap g ∧ IsWord k word ∧ v = g ++ k

/-- A number as a value. -/
def PrintsLong (n : Number) (v : List UInt8) : Prop := ∃ g, Gap g ∧ v = g ++ decimal n.toNat

/-- A text in quotes as a value. -/
def PrintsQuoted (s : List UInt8) (v : List UInt8) : Prop := ∃ g, Gap g ∧ v = g ++ 34 :: (s ++ [34])

/-- A word is read when no word in front of it on the list begins with it. -/
theorem wordRead_of_prints (h : PrintsWord word v) (htail : Closing tail) (hplain : PlainWord word)
    (front back : List (String × (β → β))) {store : β → β}
    (hfront : ∀ w ∈ front.map Prod.fst, Begins (ascii word) w = false) (b : β) :
    WordRead ShortKey (front ++ (word, store) :: back) (b, v ++ tail) (store b, tail) := by
  obtain ⟨g, k, hg, hk, rfl⟩ := h
  obtain ⟨hkey, hshort⟩ := key_word hg hk hplain htail.delimits
  refine ⟨k, (word, store), hkey, hshort, ?_, rfl⟩
  have hnone : (front.find? fun w => Begins k w.1) = none := by
    rw [List.find?_eq_none]
    intro w hw
    rw [hk.begins_eq, hfront w.1 (mem_map_of_mem hw)]
    exact Bool.false_ne_true
  rw [List.find?_append, hnone, Option.none_or]
  exact List.find?_cons_of_pos hk.begins

theorem numberRead_of_prints {n : Number} (h : PrintsLong n v) (htail : Closing tail) (store : Nat → β → β) (b : β) :
    NumberRead ShortKey store (b, v ++ tail) (store n.toNat b, tail) := by
  obtain ⟨g, hg, rfl⟩ := h
  have hsmall := n.small
  have hread := strtoll_decimal hsmall
  refine ⟨decimal n.toNat, key_plain hg (decimal_ne_nil _) (decimal_not_special _) n.length_decimal htail.delimits,
    n.length_decimal, by rw [hread], ?_⟩
  have hvalue : ((n.toNat : Int) % 2 ^ 64).toNat = n.toNat := by omega
  rw [hread, hvalue]

/-- A text in a field of `size` bytes. -/
def Text.of (size : Nat) (s : List UInt8) : Text := ⟨overwrite (List.replicate size 0) s, s.length⟩

theorem textRead_of_prints {s : List UInt8} (h : PrintsQuoted s v) (htail : Closing tail) (hquote : 34 ∉ s)
    (hzero : (0 : UInt8) ∉ s) {limit : Nat} (hlen : s.length < tnsKeySize) (hlimit : s.length ≤ limit)
    (store : (Text → Text) → β → β) (b : β) :
    TextRead ShortKey limit store (b, v ++ tail) (store (fun t => ⟨overwrite t.bytes s, s.length⟩) b, tail) := by
  obtain ⟨g, hg, rfl⟩ := h
  refine ⟨s, key_quoted hg hquote hlen htail.delimits, hlen, ?_⟩
  rw [if_pos hlimit, strncpy_self hzero]

end Leaves

/-! ## Nodes -/

/-- The entries of a node: the kinds of their keys, what they look like, and what they do. -/
structure Form (C β : Type) where
  kinds : C → List KeyType
  prints : C → List UInt8 → Prop
  store : C → β → β

namespace Form

variable {C β : Type} (form : Form C β)

/-- What some entries do, one after the other. -/
def storeAll (entries : List C) (b : β) : β := entries.foldl (fun b c => form.store c b) b

theorem storeAll_append (as bs : List C) (b : β) :
    form.storeAll (as ++ bs) b = form.storeAll bs (form.storeAll as b) := foldl_append

/-- Entries as text, in any arrangement. -/
def Prints (entries : List C) (v : List UInt8) : Prop :=
  ∃ order texts, Arranged form.kinds order entries ∧
    List.Forall₂ (fun c text => PrintsPair (form.kinds c) (form.prints c) text) order texts ∧ v = texts.flatten

/-- The printed entries are read by the relation of the node: an entry as long as it is due, and entries of
different kinds in any order. -/
structure Reads (value : Value β) (Fine : β → Prop) (Due : List C → β → Prop) : Prop where
  read : ∀ {c rest b}, Due (c :: rest) b → ∀ keyType ∈ form.kinds c, ∀ v tail, form.prints c v → Closing tail →
    value keyType (b, v ++ tail) (form.store c b, tail)
  due : ∀ {c rest b}, Due (c :: rest) b → Due rest (form.store c b)
  fine : ∀ b c, Fine b → Fine (form.store c b)
  comm : ∀ b c c', Fine b → form.kinds c ≠ form.kinds c' →
    form.store c' (form.store c b) = form.store c (form.store c' b)

variable {form} {value : Value β} {Fine : β → Prop} {Due : List C → β → Prop}

theorem Reads.chain (h : form.Reads value Fine Due) {order : List C} {texts : List (List UInt8)}
    (hprints : List.Forall₂ (fun c text => PrintsPair (form.kinds c) (form.prints c) text) order texts) {b : β}
    (hdue : Due order b) (tail : List UInt8) :
    ReflTransGen (Step ShortKey value) (b, texts.flatten ++ tail) (form.storeAll order b, tail) := by
  induction hprints generalizing b with
  | nil => exact .refl
  | @cons c text order texts hpair _ ih =>
    rw [flatten_cons, append_assoc]
    exact .head (step_of_prints hpair (h.read hdue) _) (ih (h.due hdue))

/-- **The printed entries of a node are read**, and do what they do in their own order. -/
theorem Reads.node (h : form.Reads value Fine Due) {entries : List C} (hne : entries ≠ []) {b : β} (hfine : Fine b)
    (hdue : ∀ order, Arranged form.kinds order entries → Due order b) {v : List UInt8} (hprints : form.Prints entries v)
    (tail : List UInt8) :
    TransGen (Step ShortKey value) (b, v ++ tail) (form.storeAll entries b, tail) := by
  obtain ⟨order, texts, harranged, htexts, rfl⟩ := hprints
  have hstore : form.storeAll order b = form.storeAll entries b := harranged.foldl h.fine h.comm hfine
  rw [← hstore]
  have hdue := hdue order harranged
  cases htexts with
  | nil => exact absurd harranged.eq_nil hne
  | @cons c text order texts hpair hrest =>
    rw [flatten_cons, append_assoc]
    exact .head' (step_of_prints hpair (h.read hdue) _) (h.chain hrest (h.due hdue) tail)

variable (form) in
/-- The entries are read by the relation of the node wherever they stand. -/
def ReadsAlways (value : Value β) : Prop := form.Reads value (fun _ => True) fun _ _ => True

theorem readsAlways (hread : ∀ b c, ∀ keyType ∈ form.kinds c, ∀ v tail, form.prints c v → Closing tail →
      value keyType (b, v ++ tail) (form.store c b, tail))
    (hcomm : ∀ b c c', form.kinds c ≠ form.kinds c' → form.store c' (form.store c b) = form.store c (form.store c' b)) :
    form.ReadsAlways value :=
  ⟨fun _ => hread _ _, fun _ => trivial, fun _ _ _ => trivial, fun b c c' _ => hcomm b c c'⟩

/-- The node is read by its parent. -/
theorem ReadsAlways.nodeRead {γ : Type} (h : form.ReadsAlways value) {entries : List C} (hne : entries ≠ [])
    {init : γ → β} {keep : β → γ → γ} {b : γ} {final : β} (hfinal : form.storeAll entries (init b) = final)
    {v : List UInt8} (hprints : form.Prints entries v) :
    NodeRead ShortKey value init keep (b, v ++ tail) (keep final b, tail) := by
  refine ⟨final, ?_, rfl⟩
  rw [← hfinal]
  exact h.node hne trivial (fun _ _ => trivial) hprints tail

end Form

end ObConnector.Tns
