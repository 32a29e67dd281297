/-
# ObConnector.Complex.Parser -- the cache of type descriptions.

`parser_complex` goes twice through the rows in which the server describes types (`ob_complex.c`): first it
makes or resets the entries and finds the largest attribute number of each object, then it fills in the
attributes. The array of an object is allocated once, the number of attributes filled in is never set
back and the kind of an entry never changes. So an object that is described again does not become valid,
and one that has grown is written past its array.

Where the numbers fit the arrays that are there or will be, nothing is written outside (`sets_inRange`).
-/
import ObConnector.Lib.CString
import ObConnector.Lib.Decimal
import ObConnector.Lib.Runs
import ObConnector.Stmt.ComplexFetch

namespace ObConnector.Complex

open Lib Stmt.Complex List

/-! ## The parser -/

/-- A row: `depth` and `sizes` (length, precision, scale and upper bound, some NULL) as `atoi` reads them,
`attrType` as `convert_type` does, with `unknow` for `TYPE_MAX`. -/
structure Row where
  depth : Int
  parentType : List UInt8
  attrNo : List UInt8
  attrType : EnumTypes
  attrName : Option (List UInt8)
  sizes : Fin 4 → Option Int
  childType : List UInt8
  childOwner : List UInt8

/-- `CHILD_TYPE`; `object` is the name of the entry it points to. -/
structure Attribute where
  type : EnumTypes
  object : Option (List UInt8)
  sizes : Fin 4 → Int
  name : List UInt8

/-- `COMPLEX_TYPE` with its attributes: the array of an object, or the one child of a collection. -/
structure CachedType where
  type : EnumTypes
  ownerName : List UInt8
  isValid : Bool
  attrNo : Nat
  initAttrNo : Nat
  child : Option (List Attribute)

/-- The table of a connection. -/
abbrev Cache := List UInt8 → Option CachedType

def zeroAttribute : Attribute := ⟨.number, none, fun _ => 0, []⟩

/-- The size of the fields for names. -/
def nameSize : Nat := 128

/-- `is_xmltype`. -/
def Row.IsXmltype (row : Row) : Prop :=
  row.depth = 0 ∧ atoi row.attrNo = 0 ∧ row.childType.map toLower = (ascii "XMLTYPE").map toLower ∧
    row.childOwner.map toLower = (ascii "SYS").map toLower

instance (row : Row) : Decidable row.IsXmltype := inferInstanceAs (Decidable (_ ∧ _))

def Row.kind (row : Row) : EnumTypes := if row.IsXmltype then .xmltype else row.attrType

/-- The row describes an entry of the cache. -/
def Row.Describes (row : Row) (name : List UInt8) : Prop :=
  (row.kind = .object ∨ row.kind = .collection ∨ row.kind = .xmltype) ∧ row.childType = name

instance (row : Row) (name : List UInt8) : Decidable (row.Describes name) := inferInstanceAs (Decidable (_ ∧ _))

/-- The attributes of an entry as it is made. -/
def startChild (kind : EnumTypes) : Option (List Attribute) :=
  if kind = .object then none
  else some [if kind = .xmltype then { zeroAttribute with type := .varchar2 } else zeroAttribute]

/-- An entry as it is made, and one that is there already. -/
def describedAs (row : Row) : Option CachedType → CachedType
  | none => ⟨row.kind, row.childOwner, row.kind = .xmltype, 0, 0, startChild row.kind⟩
  | some t =>
    { t with
      isValid := t.type = .xmltype
      attrNo := if t.type = .object then 0 else t.attrNo
      child := if t.type = .xmltype then t.child.map (List.map fun c => { c with type := .varchar2 }) else t.child }

/-- The larger attribute number of an object. -/
def counted (row : Row) (t : CachedType) : CachedType :=
  if t.type = .object ∧ t.attrNo < (strtoull row.attrNo).1 then { t with attrNo := (strtoull row.attrNo).1 % 2 ^ 32 } else t

/-- A row in the first pass: whether the call fails, and the cache. -/
def firstPass (row : Row) (c : Cache) : Except Fault (Bool × Cache) :=
  if row.Describes row.childType ∧ c row.childType = none ∧
      (nameSize < row.childType.length ∨ nameSize < row.childOwner.length) then .error .writeOutside
  else
    let c := if row.Describes row.childType then Function.update c row.childType (some (describedAs row (c row.childType)))
      else c
    if row.depth = 0 then .ok (false, c)
    else match c row.parentType with
      | none => .ok (true, c)
      | some t => .ok (false, Function.update c row.parentType (some (counted row t)))

/-- The row's attribute is an object or a collection, to be found in the cache. -/
def Row.Refers (row : Row) : Prop := row.attrType = .collection ∨ row.attrType = .object

instance (row : Row) : Decidable row.Refers := inferInstanceAs (Decidable (_ ∨ _))

/-- The attribute that a row gives, over what was there; names are copied without their end. `missing` says
that the entry it refers to is not in the cache. -/
def storedAttribute (row : Row) (missing : Bool) (a : Attribute) : Attribute where
  type := row.attrType
  object := if row.Refers ∧ missing = false then some row.childType else a.object
  sizes i := (row.sizes i).getD (a.sizes i)
  name := row.attrName.elim a.name fun name => name ++ a.name.drop name.length

/-- The array of an object, allocated when it is not there. -/
def CachedType.array (t : CachedType) : List Attribute := t.child.getD (List.replicate t.attrNo zeroAttribute)

/-- A row in the second pass, for its parent: the stores, and what counts as filled if the call goes on. -/
def filled (row : Row) (missing : Bool) (t : CachedType) : Except Fault CachedType :=
  if nameSize < (row.attrName.getD []).length ∧ (t.type = .object ∨ t.type = .collection) then .error .writeOutside
  else match t.type with
    | .object =>
      let idx := atoi row.attrNo - 1
      if 0 ≤ idx ∧ idx < t.array.length then
        let t := { t with child := some (t.array.modify idx.toNat (storedAttribute row missing)) }
        let n := (t.initAttrNo + 1) % 2 ^ 32
        .ok (if missing then t else { t with initAttrNo := n, isValid := t.isValid || n = t.attrNo })
      else .error .writeOutside
    | .collection =>
      let t := { t with child := some [storedAttribute row missing ((t.child.getD []).headD zeroAttribute)] }
      .ok (if missing then t else { t with isValid := true })
    | _ => .ok t

/-- A row in the second pass. -/
def secondPass (row : Row) (c : Cache) : Except Fault (Bool × Cache) :=
  if row.depth = 0 then .ok (false, c)
  else match c row.parentType with
    | none => .ok (true, c)
    | some t => do
      let missing : Bool := row.Refers ∧ c row.childType = none
      let t' ← filled row missing t
      .ok ((t.type = .object ∨ t.type = .collection) ∧ missing = true, Function.update c row.parentType (some t'))

/-- One pass over the rows. -/
def pass (step : Row → Cache → Except Fault (Bool × Cache)) : List Row → Cache → Except Fault (Bool × Cache)
  | [], c => .ok (false, c)
  | row :: rows, c => do
    let (failed, c) ← step row c
    if failed then return (true, c)
    pass step rows c

/-- `parser_complex`: whether it fails, and the cache. -/
def parserComplex (c : Cache) (rows : List Row) : Except Fault (Bool × Cache) := do
  let (failed, c) ← pass firstPass rows c
  if failed then return (true, c)
  pass secondPass rows c

/-! ## One entry at a time -/

/-- The row gives an attribute of the type. -/
def Row.Of (row : Row) (name : List UInt8) : Prop := row.depth ≠ 0 ∧ row.parentType = name

instance (row : Row) (name : List UInt8) : Decidable (row.Of name) := inferInstanceAs (Decidable (_ ∧ _))

/-- What a row of the first pass does to one entry. -/
def touched (name : List UInt8) (o : Option CachedType) (row : Row) : Option CachedType :=
  let o := if row.Describes name then some (describedAs row o) else o
  if row.Of name then o.map (counted row) else o

/-- The names of the row fit. -/
def Row.Named (row : Row) : Prop :=
  row.childType.length ≤ nameSize ∧ row.childOwner.length ≤ nameSize ∧ (row.attrName.getD []).length ≤ nameSize

variable {row : Row} {rows : List Row} {c : Cache} {name : List UInt8} {t : CachedType}

theorem firstPass_spec (h : row.Named) : ∃ failed c', firstPass row c = .ok (failed, c') ∧
    if failed then row.depth ≠ 0 ∧ touched row.parentType (c row.parentType) row = none
    else ∀ name, c' name = touched name (c name) row := by
  obtain ⟨htype, howner, -⟩ := h
  unfold firstPass
  rw [if_neg (by omega)]
  obtain ⟨c1, hc1⟩ : ∃ c1, c1 = if row.Describes row.childType
    then Function.update c row.childType (some (describedAs row (c row.childType))) else c := ⟨_, rfl⟩
  have hname : ∀ name, c1 name = if row.Describes name then some (describedAs row (c name)) else c name := by
    intro name
    rw [hc1]
    by_cases heq : row.childType = name
    · subst heq
      split <;> simp
    have hother : ¬row.Describes name := fun h => heq h.2
    split
    · exact Function.update_of_ne (Ne.symm heq) _ _
    · rfl
  rw [← hc1]
  dsimp only
  split
  next hdepth =>
    refine ⟨false, c1, rfl, fun name => ?_⟩
    rw [touched, ← hname name]
    exact (if_neg fun h => h.1 hdepth).symm
  next hdepth =>
    cases hparent : c1 row.parentType with
    | none =>
      refine ⟨true, c1, rfl, hdepth, ?_⟩
      rw [touched, ← hname, hparent]
      exact ite_self none
    | some t =>
      refine ⟨false, _, rfl, fun name => ?_⟩
      rw [touched, ← hname name]
      by_cases heq : row.parentType = name
      · rw [if_pos ⟨hdepth, heq⟩, ← heq, hparent, Function.update_self]
        rfl
      · rw [if_neg fun h => heq h.2, Function.update_of_ne (Ne.symm heq)]

/-- **The first pass, entry by entry.** It fails when the parent of a row is missing. -/
theorem firstPasses_spec (h : ∀ row ∈ rows, row.Named) : ∃ failed c', pass firstPass rows c = .ok (failed, c') ∧
    if failed then ∃ before row after, rows = before ++ row :: after ∧ row.depth ≠ 0 ∧
      (before ++ [row]).foldl (touched row.parentType) (c row.parentType) = none
    else ∀ name, c' name = rows.foldl (touched name) (c name) := by
  induction rows generalizing c with
  | nil => exact ⟨false, c, rfl, fun name => rfl⟩
  | cons row rows ih =>
    obtain ⟨hrow, hrows⟩ := forall_mem_cons.mp h
    obtain ⟨failed, c1, hstep, hspec⟩ := @firstPass_spec row c hrow
    rw [pass, hstep]
    cases failed with
    | true => exact ⟨true, c1, rfl, [], row, rows, rfl, hspec⟩
    | false =>
      obtain ⟨failed, c', hpass, hspec'⟩ := @ih c1 hrows
      refine ⟨failed, c', hpass, ?_⟩
      cases failed with
      | true =>
        obtain ⟨before, row', after, rfl, hdepth, hnone⟩ := hspec'
        refine ⟨row :: before, row', after, rfl, hdepth, ?_⟩
        rw [← hnone, hspec]
        rfl
      | false =>
        intro name
        rw [hspec' name, hspec name]
        rfl

/-! ## Inside the arrays -/

/-- The length of the array of an object that has one. -/
def arrayLength (o : Option CachedType) : Option Nat :=
  o.bind fun t => if t.type = .object then t.child.map List.length else none

/-- The number of the row's attribute. -/
def Row.number (row : Row) : Nat := (atoi row.attrNo).toNat

/-- The kind of an entry that is there, or of the one that the rows make. -/
def kindIn (c : Cache) (rows : List Row) (name : List UInt8) : Option EnumTypes :=
  ((c name).map CachedType.type).or ((rows.find? fun row => row.Describes name).map Row.kind)

/-- No row describes the type again behind an attribute with this number or a larger one. -/
def Reached (rows : List Row) (name : List UInt8) (n : Nat) : Prop :=
  ∃ before last after, rows = before ++ last :: after ∧ last.Of name ∧ n ≤ last.number ∧
    ∀ row ∈ after, ¬row.Describes name

/-- The names fit. The numbers of an object's attributes start at one and are read alike twice; there is
room for them in the array it has, or the one it gets is made large enough. -/
structure InRange (c : Cache) (rows : List Row) : Prop where
  names : ∀ row ∈ rows, row.Named
  numbers : ∀ row ∈ rows, row.depth ≠ 0 → kindIn c rows row.parentType = some .object →
    1 ≤ row.number ∧ (strtoull row.attrNo).1 = row.number ∧
      ((arrayLength (c row.parentType)).elim (Reached rows row.parentType row.number) (row.number ≤ ·))

theorem number_lt (row : Row) : row.number < 2 ^ 31 := by
  have := @Int.bmod_lt (strtoll row.attrNo).1 (2 ^ 32) (by decide)
  rw [Row.number, atoi]
  omega

theorem counted_eq (h : (strtoull row.attrNo).1 = row.number) (t : CachedType) :
    counted row t = { t with attrNo := if t.type = .object then max t.attrNo row.number else t.attrNo } := by
  have := number_lt row
  unfold counted
  rw [h]
  split
  next hlarger => rw [if_pos hlarger.1, Nat.mod_eq_of_lt (by omega), max_eq_right (by omega)]
  next hlarger =>
    split
    · rw [max_eq_left (by grind)]
    · rfl

theorem touched_arrayLength (name : List UInt8) (o : Option CachedType) (row : Row) :
    arrayLength (touched name o row) = arrayLength o := by
  have hcounted : ∀ o, arrayLength (Option.map (counted row) o) = arrayLength o := by
    rintro (_ | t)
    · rfl
    simp only [Option.map_some, counted]
    split <;> rfl
  have hdescribed : arrayLength (some (describedAs row o)) = arrayLength o := by
    cases o with
    | none => simp +contextual [arrayLength, describedAs, startChild]
    | some t => grind [arrayLength, describedAs]
  unfold touched
  split <;> split <;> simp only [hcounted, hdescribed]

theorem foldl_arrayLength (o : Option CachedType) : arrayLength (rows.foldl (touched name) o) = arrayLength o := by
  induction rows generalizing o with
  | nil => rfl
  | cons row rows ih => rw [foldl_cons, ih, touched_arrayLength]

theorem foldl_kind (c : Cache) : (rows.foldl (touched name) (c name)).map CachedType.type = kindIn c rows name := by
  unfold kindIn
  induction rows generalizing c with
  | nil => simp
  | cons row rows ih =>
    have htouched : (touched name (c name) row).map CachedType.type =
        ((c name).map CachedType.type).or (if row.Describes name then some row.kind else none) := by
      have hcounted : ∀ t, (counted row t).type = t.type := fun t => by unfold counted; split <;> rfl
      unfold touched
      cases c name <;> split <;> split <;> simp [hcounted, describedAs]
    have := ih (Function.update c name (touched name (c name) row))
    rw [Function.update_self, htouched] at this
    rw [foldl_cons, this]
    by_cases hrow : row.Describes name <;> simp [hrow]

/-- An attribute behind the last description counts in the end. -/
theorem Reached.le_attrNo {n : Nat} {o : Option CachedType} (h : Reached rows name n)
    (hread : ∀ row ∈ rows, row.Of name → (strtoull row.attrNo).1 = row.number)
    (ht : rows.foldl (touched name) o = some t) (htype : t.type = .object) : n ≤ t.attrNo := by
  obtain ⟨before, last, after, rfl, hlast, hn, hafter⟩ := h
  simp only [forall_mem_append, forall_mem_cons] at hread
  obtain ⟨-, hreadLast, hread⟩ := hread
  rw [foldl_append, foldl_cons] at ht
  have hstart : ∀ t, touched name (before.foldl (touched name) o) last = some t → t.type = .object → n ≤ t.attrNo := by
    intro t ht htype
    rw [touched, if_pos hlast, Option.map_eq_some_iff] at ht
    obtain ⟨t', -, rfl⟩ := ht
    rw [counted_eq (hreadLast hlast)] at htype ⊢
    grind
  generalize touched name (before.foldl (touched name) o) last = o at ht hstart
  induction after generalizing o with
  | nil => exact hstart t ht htype
  | cons row after ih =>
    obtain ⟨hrow, hafter⟩ := forall_mem_cons.mp hafter
    obtain ⟨hreadRow, hread⟩ := forall_mem_cons.mp hread
    refine ih hafter hread _ ht ?_
    intro t ht htype
    rw [touched] at ht
    split at ht
    next hof =>
      obtain ⟨t', ho, rfl⟩ := Option.map_eq_some_iff.mp ht
      rw [counted_eq (hreadRow hof)] at htype ⊢
      grind
    next => exact hstart t ht htype

/-- The row's parent, if it is an object, has room for its number. -/
def Fits (row : Row) (t : CachedType) : Prop := t.type = .object → 1 ≤ row.number ∧ row.number ≤ t.array.length

theorem filled_object (hname : row.Named) (htype : t.type = .object) (h : Fits row t) (missing : Bool) :
    filled row missing t = .ok
      (let t := { t with child := some (t.array.modify (row.number - 1) (storedAttribute row missing)) }
      let n := (t.initAttrNo + 1) % 2 ^ 32
      if missing then t else { t with initAttrNo := n, isValid := t.isValid || n = t.attrNo }) := by
  obtain ⟨hone, hroom⟩ := h htype
  have hidx : (atoi row.attrNo - 1).toNat = row.number - 1 := by rw [Row.number]; omega
  unfold filled
  rw [if_neg fun hlong => absurd hname.2.2 (by omega), htype]
  dsimp only
  rw [hidx, if_pos (by rw [Row.number] at *; omega)]

theorem filled_spec (hname : row.Named) (h : Fits row t) (missing : Bool) :
    ∃ t', filled row missing t = .ok t' ∧ t'.type = t.type ∧ (t.type = .object → t'.array.length = t.array.length) := by
  by_cases htype : t.type = .object
  · refine ⟨_, filled_object hname htype h missing, ?_, fun _ => ?_⟩
    · cases missing <;> rfl
    · cases missing <;> simp [CachedType.array]
  unfold filled
  rw [if_neg fun hlong => absurd hname.2.2 (by omega)]
  split
  · contradiction
  · refine ⟨_, rfl, ?_, fun h => absurd h htype⟩
    cases missing <;> rfl
  · exact ⟨t, rfl, rfl, fun _ => rfl⟩

theorem secondPass_fits (hname : row.Named) (h : ∀ t, c row.parentType = some t → row.depth ≠ 0 → Fits row t) :
    ∃ failed c', secondPass row c = .ok (failed, c') ∧
      ∀ name t', c' name = some t' → ∃ t, c name = some t ∧ ∀ row, Fits row t → Fits row t' := by
  unfold secondPass
  split
  · exact ⟨false, c, rfl, fun name t ht => ⟨t, ht, fun _ h => h⟩⟩
  next hdepth =>
    cases hparent : c row.parentType with
    | none => exact ⟨true, c, rfl, fun name t ht => ⟨t, ht, fun _ h => h⟩⟩
    | some t =>
      obtain ⟨t', hfilled, htype, hlength⟩ := filled_spec hname (h t hparent hdepth)
        (row.Refers ∧ c row.childType = none)
      dsimp only
      rw [hfilled]
      refine ⟨_, _, rfl, fun name t1 ht1 => ?_⟩
      by_cases heq : name = row.parentType
      · subst heq
        rw [Function.update_self] at ht1
        cases ht1
        refine ⟨t, hparent, fun row hrow hobject => ?_⟩
        rw [htype] at hobject
        rw [hlength hobject]
        exact hrow hobject
      · rw [Function.update_of_ne heq] at ht1
        exact ⟨t1, ht1, fun _ h => h⟩

theorem secondPasses_fits (hnames : ∀ row ∈ rows, row.Named)
    (h : ∀ row ∈ rows, ∀ t, c row.parentType = some t → row.depth ≠ 0 → Fits row t) :
    ∃ r, pass secondPass rows c = .ok r := by
  induction rows generalizing c with
  | nil => exact ⟨_, rfl⟩
  | cons row rows ih =>
    obtain ⟨hname, hnames⟩ := forall_mem_cons.mp hnames
    obtain ⟨hrow, hrows⟩ := forall_mem_cons.mp h
    obtain ⟨failed, c1, hstep, hc1⟩ := secondPass_fits hname hrow
    rw [pass, hstep]
    cases failed with
    | true => exact ⟨_, rfl⟩
    | false =>
      refine ih hnames fun row' hmem t' ht' hdepth => ?_
      obtain ⟨t, ht, hfits⟩ := hc1 _ t' ht'
      exact hfits row' (hrows row' hmem t ht hdepth)

/-- The rows find room once the first pass has counted them. -/
theorem InRange.fits (h : InRange c rows) (hrow : row ∈ rows) (hdepth : row.depth ≠ 0)
    (ht : rows.foldl (touched row.parentType) (c row.parentType) = some t) : Fits row t := by
  intro htype
  have hkind : kindIn c rows row.parentType = some .object := by
    rw [← foldl_kind, ht, ← htype]
    rfl
  have hread : ∀ row' ∈ rows, row'.Of row.parentType → (strtoull row'.attrNo).1 = row'.number := by
    rintro row' hrow' ⟨hdepth', hparent⟩
    exact (h.numbers row' hrow' hdepth' (hparent ▸ hkind)).2.1
  obtain ⟨hone, -, hroom⟩ := h.numbers row hrow hdepth hkind
  refine ⟨hone, ?_⟩
  have harray : arrayLength (c row.parentType) = t.child.map List.length := by
    rw [← foldl_arrayLength, ht, arrayLength, Option.bind_some, if_pos htype]
  rw [harray] at hroom
  unfold CachedType.array
  cases hchild : t.child with
  | none =>
    rw [hchild] at hroom
    simpa using hroom.le_attrNo hread ht htype
  | some child =>
    rw [hchild] at hroom
    exact hroom

theorem InRange.parserComplex_ok (h : InRange c rows) : ∃ r, parserComplex c rows = .ok r := by
  obtain ⟨failed, c1, hfirst, hspec⟩ := @firstPasses_spec rows c h.names
  rw [parserComplex, hfirst]
  cases failed with
  | true => exact ⟨_, rfl⟩
  | false =>
    refine secondPasses_fits h.names fun row hrow t ht hdepth => ?_
    rw [hspec] at ht
    exact h.fits hrow hdepth ht

/-- A result set in a run. -/
def parserStep (c : Cache) (rows : List Row) : Except Fault Cache := (parserComplex c rows).map Prod.snd

/-- **Result sets in range, one after the other, write nothing outside.** -/
theorem sets_inRange {sets : List (List Row)} (h : Along parserStep InRange c sets) :
    ∃ c', runAll parserStep c sets = .ok c' := by
  obtain ⟨c', hrun, -⟩ := @runAll_invariant _ _ _ parserStep InRange c sets (fun _ => True) (by
    intro c rows _ hrange
    obtain ⟨r, hr⟩ := hrange.parserComplex_ok
    exact ⟨r.2, by rw [parserStep, hr]; rfl, trivial⟩) trivial h
  exact ⟨c', hrun⟩

/-- The description of an object, and a row with an attribute of it. -/
def objectRow (name : List UInt8) : Row := ⟨0, [], [48], .object, none, fun _ => none, name, []⟩

def numberRow (name no : List UInt8) : Row := ⟨1, name, no, .number, none, fun _ => none, [], []⟩

/-- An object with one attribute. -/
def oneNumber : List Row := [objectRow [84], numberRow [84] [49]]

theorem oneNumber_inRange {c : Cache} (h : arrayLength (c [84]) = none ∨ arrayLength (c [84]) = some 1) :
    InRange c oneNumber := by
  refine ⟨?_, ?_⟩
  · simp [oneNumber, Row.Named, objectRow, numberRow, nameSize]
  · intro row hrow hdepth hkind
    simp only [oneNumber, mem_cons, not_mem_nil, or_false] at hrow
    obtain rfl | rfl := hrow
    · exact absurd rfl hdepth
    · refine ⟨by decide +kernel, by decide +kernel, ?_⟩
      show (arrayLength (c [84])).elim _ _
      rcases h with h | h <;> rw [h]
      · exact ⟨[objectRow [84]], numberRow [84] [49], [], rfl, by decide, le_rfl, by simp⟩
      · exact (by decide +kernel : (numberRow [84] [49]).number ≤ 1)

/-- The object is described, and then described again. -/
theorem oneNumber_stored : ∃ c, runAll parserStep (fun _ => none) [oneNumber, oneNumber] = .ok c := by
  refine sets_inRange ⟨oneNumber_inRange (.inl rfl), fun c hc => ⟨oneNumber_inRange (.inr ?_), fun _ _ => trivial⟩⟩
  have harray : (parserStep (fun _ => none) oneNumber).map (fun c => arrayLength (c [84])) = .ok (some 1) := by
    decide +kernel
  rw [hc] at harray
  injection harray

/-- An object that has a second attribute when it is described again is written past its array. -/
theorem grown_object_overruns :
    (runAll parserStep (fun _ => none) [oneNumber, oneNumber ++ [numberRow [84] [50]]]).map (fun _ => ()) =
      .error .writeOutside := by
  decide +kernel

end ObConnector.Complex
