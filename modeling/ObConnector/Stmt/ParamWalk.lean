/-
# ObConnector.Stmt.ParamWalk -- the walk over the headers of a parameter.

The two passes over a parameter are right when each ends, looks at every element once and in order, and
has its cursor behind the last header at the end; for an object this is also what ends the loop. The
headers in order are `stepsFrom`, the whole expected walk of a tree is `Element.lenTrace` for the pass
that computes the length and `Element.storeTrace` for the one that stores.

The cursor moves by `skip_param_complex`, which knows the header of every type that can be stored but
those of the two intervals: there it stays (`skip_interval`). An object with an interval is walked
forever (`untilEnd_stuck`), an array of intervals is stored as copies of its first one. The counters
bound the number of elements. Besides, the walk is right (`walks_iff`).
-/
import ObConnector.Stmt.ParamTree

namespace ObConnector.Stmt.Param

open Lib Net List
open Stmt.Complex (OracleInterval sizeofComplexBindBasic sizeofComplexBindString sizeofComplexBindObject)

/-! ## the walk expected -/

/-- The headers of a row in order, from an offset on, with what is to be done below each. -/
def stepsFrom (below : Element → Trace) : Nat → List Element → List (Nat × Trace)
  | _, [] => []
  | offset, e :: es => (offset, below e) :: stepsFrom below (offset + e.headerSize) es

mutual

/-- What `calculate_param_complex_len` is to do for an element. -/
def Element.lenTrace : Element → Trace
  | .basic _ _ => .leaf
  | .string _ _ _ => .leaf
  | .object isNull es => if isNull then .leaf else .walk (lenSteps 0 es) (headerBytes es)
  | .array isNull es => if isNull then .leaf else .walk (lenSteps 0 es) (headerBytes es)

/-- Its steps over a row. -/
def lenSteps : Nat → List Element → List (Nat × Trace)
  | _, [] => []
  | offset, e :: es => (offset, e.lenTrace) :: lenSteps (offset + e.headerSize) es

end

mutual

/-- What a storing loop is to do for an element; objects are counted first. -/
def Element.storeTrace : Element → Trace
  | .basic _ _ => .leaf
  | .string _ _ _ => .leaf
  | .object isNull es => if isNull then .leaf
      else .after (.walk (stepsFrom (fun _ => .leaf) 0 es) (headerBytes es)) (.walk (storeSteps 0 es) (headerBytes es))
  | .array isNull es => if isNull then .leaf else .walk (storeSteps 0 es) (headerBytes es)

/-- Its steps over a row. -/
def storeSteps : Nat → List Element → List (Nat × Trace)
  | _, [] => []
  | offset, e :: es => (offset, e.storeTrace) :: storeSteps (offset + e.headerSize) es

end

theorem lenSteps_eq (offset : Nat) (es : List Element) : lenSteps offset es = stepsFrom Element.lenTrace offset es := by
  induction es generalizing offset with
  | nil => rfl
  | cons e es ih => rw [lenSteps, stepsFrom, ih]

theorem storeSteps_eq (offset : Nat) (es : List Element) :
    storeSteps offset es = stepsFrom Element.storeTrace offset es := by
  induction es generalizing offset with
  | nil => rfl
  | cons e es ih => rw [storeSteps, stepsFrom, ih]

/-! ## one step of the cursor -/

/-- The element is of one of the two interval types. -/
def Element.Interval (e : Element) : Prop := e.type = .obIntervalYm ∨ e.type = .obIntervalDs

instance (e : Element) : Decidable e.Interval := by unfold Element.Interval; infer_instance

theorem headerSize_pos (e : Element) : 0 < e.headerSize := by
  cases e <;> exact Nat.zero_lt_succ _

variable {e : Element}

/-- **The cursor moves by the header of every type but the intervals.** -/
theorem skip_of_not_interval (h : ¬e.Interval) (cursor : Nat) :
    skipParamComplex e.type cursor = cursor + e.headerSize := by
  cases e with
  | basic isNull v =>
    cases v with
    | obIntervalYm t => exact absurd (.inl rfl) h
    | obIntervalDs t => exact absurd (.inr rfl) h
    | _ => rfl
  | string isNull t content => cases t <;> rfl
  | object isNull es => rfl
  | array isNull es => rfl

/-- At an interval it stays. -/
theorem skip_interval (h : e.Interval) (cursor : Nat) : skipParamComplex e.type cursor = cursor := by
  rcases h with h | h <;> rw [h] <;> rfl

theorem headerBytes_append (as bs : List Element) : headerBytes (as ++ bs) = headerBytes as + headerBytes bs := by
  simp [headerBytes]

theorem headerBytes_cons (e : Element) (es : List Element) : headerBytes (e :: es) = e.headerSize + headerBytes es := by
  simp [headerBytes]

theorem headerBytes_snoc (pre : List Element) (e : Element) :
    headerBytes (pre ++ [e]) = headerBytes pre + e.headerSize := by
  rw [headerBytes_append]
  rfl

/-- The header behind those of `pre`. -/
theorem headerAt_behind (pre : List Element) (e : Element) (post : List Element) :
    headerAt (pre ++ e :: post) (headerBytes pre) = .ok e := by
  induction pre with
  | nil => rfl
  | cons d pre ih =>
    have hpos := headerSize_pos d
    rw [headerBytes_cons, cons_append, headerAt, if_neg (by omega), if_neg (by omega), Nat.add_sub_cancel_left]
    exact ih

/-! ## the loops -/

section Loops

variable {α : Type} {visit : Element → Except Fault (α × Trace)} {below : Element → Trace} {es : List Element}
  {fuel : Nat} {as : List α}

/-- No element is an interval, and each can be visited, with what is expected below it. -/
def Visits (visit : Element → Except Fault (α × Trace)) (below : Element → Trace) (es : List Element) : Prop :=
  ∀ e ∈ es, ¬e.Interval ∧ ∃ a, visit e = .ok (a, below e)

/-- A round that goes as expected: the element is visited, and the rest goes as expected. -/
theorem round_eq_ok {offset stop : Nat} {steps : List (Nat × Trace)}
    {rest : Except Fault (List α × List (Nat × Trace) × Nat)} :
    (visit e >>= fun a => rest >>= fun r => .ok (a.1 :: r.1, (offset, a.2) :: r.2.1, r.2.2)) =
        .ok (as, (offset, below e) :: steps, stop) ↔
      ∃ a as', visit e = .ok (a, below e) ∧ rest = .ok (as', steps, stop) ∧ as = a :: as' := by
  constructor
  · intro h
    obtain ⟨⟨a, t⟩, ha, h⟩ := bind_eq_ok.mp h
    obtain ⟨⟨as', steps', stop'⟩, hrest, h⟩ := bind_eq_ok.mp h
    cases h
    exact ⟨a, as', ha, hrest, rfl⟩
  · rintro ⟨a, as', ha, hrest, rfl⟩
    rw [ha, hrest]
    rfl

/-- The step of both loops at the header behind `pre`. -/
theorem untilEnd_step (pre : List Element) (e : Element) (post : List Element) (fuel : Nat) :
    untilEnd visit (pre ++ e :: post) (fuel + 1) (headerBytes pre) = visit e >>= fun a =>
      untilEnd visit (pre ++ e :: post) fuel (skipParamComplex e.type (headerBytes pre)) >>= fun r =>
        .ok (a.1 :: r.1, (headerBytes pre, a.2) :: r.2.1, r.2.2) := by
  have hpos := headerSize_pos e
  rw [untilEnd, if_neg (by rw [headerBytes_append, headerBytes_cons]; omega), headerAt_behind]
  rfl

/-- The loop over a row without intervals whose elements can be visited. -/
theorem untilEnd_walk (h : Visits visit below es) (pre : List Element) (hfuel : es.length < fuel) :
    ∃ as : List α, as.length = es.length ∧ untilEnd visit (pre ++ es) fuel (headerBytes pre) =
      .ok (as, stepsFrom below (headerBytes pre) es, headerBytes (pre ++ es)) := by
  induction es generalizing pre fuel with
  | nil =>
    obtain _ | fuel := fuel
    · cases hfuel
    refine ⟨[], rfl, ?_⟩
    rw [append_nil, untilEnd, if_pos rfl]
    rfl
  | cons e es ih =>
    obtain _ | fuel := fuel
    · cases hfuel
    obtain ⟨⟨hinterval, a, ha⟩, h⟩ := forall_mem_cons.mp h
    obtain ⟨as, has, hrest⟩ := ih h (pre ++ [e]) (Nat.lt_of_succ_lt_succ hfuel)
    rw [← append_cons, headerBytes_snoc] at hrest
    refine ⟨a :: as, congrArg Nat.succ has, ?_⟩
    rw [untilEnd_step, skip_of_not_interval hinterval]
    exact round_eq_ok.mpr ⟨a, as, ha, hrest, rfl⟩

/-- **An object with an interval is never done.** -/
theorem untilEnd_stuck (he : e.Interval) (pre post : List Element) (fuel : Nat)
    (r : List α × List (Nat × Trace) × Nat) :
    untilEnd visit (pre ++ e :: post) fuel (headerBytes pre) ≠ .ok r := by
  induction fuel generalizing r with
  | zero => exact nofun
  | succ fuel ih =>
    intro h
    rw [untilEnd_step, skip_interval he] at h
    obtain ⟨a, -, h⟩ := bind_eq_ok.mp h
    obtain ⟨r', h', -⟩ := bind_eq_ok.mp h
    exact ih r' h'

/-- What a loop that ended as expected tells about the row. -/
theorem untilEnd_inv (pre : List Element) {stop : Nat}
    (h : untilEnd visit (pre ++ es) fuel (headerBytes pre) = .ok (as, stepsFrom below (headerBytes pre) es, stop)) :
    as.length = es.length ∧ Visits visit below es := by
  induction es generalizing pre fuel as with
  | nil =>
    cases fuel with
    | zero => cases h
    | succ fuel =>
      rw [append_nil, untilEnd, if_pos rfl] at h
      cases h
      exact ⟨rfl, nofun⟩
  | cons e es ih =>
    have hinterval : ¬e.Interval := fun he => untilEnd_stuck he pre es fuel _ h
    cases fuel with
    | zero => cases h
    | succ fuel =>
      rw [untilEnd_step, skip_of_not_interval hinterval] at h
      obtain ⟨a, as', ha, hrest, rfl⟩ := round_eq_ok.mp h
      rw [append_cons, ← headerBytes_snoc] at hrest
      obtain ⟨hlen, hall⟩ := ih (pre ++ [e]) hrest
      exact ⟨congrArg Nat.succ hlen, forall_mem_cons.mpr ⟨⟨hinterval, a, ha⟩, hall⟩⟩

theorem countUp_step (pre : List Element) (e : Element) (post : List Element) {limit i : Nat} (hi : i < limit)
    (fuel : Nat) : countUp visit (pre ++ e :: post) limit (fuel + 1) i (headerBytes pre) = visit e >>= fun a =>
      countUp visit (pre ++ e :: post) limit fuel ((i + 1) % 2 ^ 32) (skipParamComplex e.type (headerBytes pre)) >>=
        fun r => .ok (a.1 :: r.1, (headerBytes pre, a.2) :: r.2.1, r.2.2) := by
  rw [countUp, if_pos hi, headerAt_behind]
  rfl

/-- The index of an element is below the limit and does not wrap around. -/
theorem countUp_step_row (pre : List Element) (e : Element) (post : List Element)
    (hlimit : (pre ++ e :: post).length < 2 ^ 32) (fuel : Nat) :
    countUp visit (pre ++ e :: post) (pre ++ e :: post).length (fuel + 1) pre.length (headerBytes pre) =
      visit e >>= fun a => countUp visit (pre ++ e :: post) (pre ++ e :: post).length fuel (pre ++ [e]).length
        (skipParamComplex e.type (headerBytes pre)) >>= fun r =>
          .ok (a.1 :: r.1, (headerBytes pre, a.2) :: r.2.1, r.2.2) := by
  simp only [length_append, length_cons] at hlimit
  rw [countUp_step pre e post (by simp), Nat.mod_eq_of_lt (by omega), @List.length_append _ pre [e]]
  rfl

/-- The counting loop over a row without intervals whose elements can be visited. -/
theorem countUp_walk (h : Visits visit below es) (pre : List Element) (hfuel : es.length < fuel)
    (hlimit : (pre ++ es).length < 2 ^ 32) :
    ∃ as : List α, countUp visit (pre ++ es) (pre ++ es).length fuel pre.length (headerBytes pre) =
      .ok (as, stepsFrom below (headerBytes pre) es, headerBytes (pre ++ es)) := by
  induction es generalizing pre fuel with
  | nil =>
    obtain _ | fuel := fuel
    · cases hfuel
    refine ⟨[], ?_⟩
    rw [append_nil, countUp, if_neg (lt_irrefl _)]
    rfl
  | cons e es ih =>
    obtain _ | fuel := fuel
    · cases hfuel
    obtain ⟨⟨hinterval, a, ha⟩, h⟩ := forall_mem_cons.mp h
    obtain ⟨as, hrest⟩ := ih h (pre ++ [e]) (Nat.lt_of_succ_lt_succ hfuel) (append_cons pre e es ▸ hlimit)
    rw [← append_cons, headerBytes_snoc] at hrest
    refine ⟨a :: as, ?_⟩
    rw [countUp_step_row pre e es hlimit, skip_of_not_interval hinterval]
    exact round_eq_ok.mpr ⟨a, as, ha, hrest, rfl⟩

/-- An `unsigned int` does not reach a limit of `2 ^ 32`. -/
theorem countUp_wraps {limit : Nat} (hlimit : 2 ^ 32 ≤ limit) {i cursor : Nat} (hi : i < 2 ^ 32)
    (r : List α × List (Nat × Trace) × Nat) : countUp visit es limit fuel i cursor ≠ .ok r := by
  induction fuel generalizing i cursor r with
  | zero => exact nofun
  | succ fuel ih =>
    intro h
    rw [countUp, if_pos (by omega)] at h
    obtain ⟨header, -, h⟩ := bind_eq_ok.mp h
    obtain ⟨a, -, h⟩ := bind_eq_ok.mp h
    obtain ⟨r', h', -⟩ := bind_eq_ok.mp h
    exact ih (Nat.mod_lt _ (by decide)) r' h'

/-- A counting loop whose cursor stayed at an interval has not gone on as expected. -/
theorem countUp_stuck {pre post : List Element} {limit i : Nat}
    (h : countUp visit (pre ++ e :: post) limit fuel i (headerBytes pre) = .ok (as, stepsFrom below (headerBytes pre + e.headerSize) post, headerBytes (pre ++ e :: post))) :
    False := by
  have hpos := headerSize_pos e
  cases fuel with
  | zero => cases h
  | succ fuel =>
    by_cases hi : i < limit
    · rw [countUp_step pre e post hi] at h
      obtain ⟨a, -, h⟩ := bind_eq_ok.mp h
      obtain ⟨r, -, h⟩ := bind_eq_ok.mp h
      cases post with
      | nil => cases h
      | cons d post =>
        rw [stepsFrom, Except.ok.injEq, Prod.mk.injEq, Prod.mk.injEq, List.cons.injEq, Prod.mk.injEq] at h
        omega
    · rw [countUp, if_neg hi, Except.ok.injEq, Prod.mk.injEq, Prod.mk.injEq] at h
      have hstop := h.2.2
      rw [headerBytes_append, headerBytes_cons] at hstop
      omega

/-- What a counting loop that ended as expected tells about the row. -/
theorem countUp_inv (pre : List Element) (hlimit : (pre ++ es).length < 2 ^ 32)
    (h : countUp visit (pre ++ es) (pre ++ es).length fuel pre.length (headerBytes pre) =
      .ok (as, stepsFrom below (headerBytes pre) es, headerBytes (pre ++ es))) : Visits visit below es := by
  induction es generalizing pre fuel as with
  | nil => exact nofun
  | cons e es ih =>
    cases fuel with
    | zero => cases h
    | succ fuel =>
      rw [countUp_step_row pre e es hlimit] at h
      obtain ⟨a, as', ha, hrest, rfl⟩ := round_eq_ok.mp h
      have hinterval : ¬e.Interval := by
        intro he
        rw [skip_interval he] at hrest
        exact countUp_stuck hrest
      rw [skip_of_not_interval hinterval, append_cons, ← headerBytes_snoc] at hrest
      have hall := ih (pre ++ [e]) (append_cons pre e es ▸ hlimit) hrest
      exact forall_mem_cons.mpr ⟨⟨hinterval, a, ha⟩, hall⟩

end Loops

/-! ## the trees that are walked as expected -/

mutual

/-- What is asked of an element for what is done below it: nothing if it is null. -/
def Element.Inner : Element → Prop
  | .basic _ _ => True
  | .string _ _ _ => True
  | .object isNull es => isNull = true ∨ (es.length ≤ 2 ^ 31 - 8 ∧ AllSteady es)
  | .array isNull es => isNull = true ∨ (es.length < 2 ^ 32 ∧ AllSteady es)

/-- No element of the row is an interval, and the same below. -/
def AllSteady : List Element → Prop
  | [] => True
  | e :: es => (¬e.Interval ∧ e.Inner) ∧ AllSteady es

end

section Passes

variable {complexLen : Element → Except Fault (Nat × Trace)} {store : Element → Except Fault (List UInt8 × Trace)}
  {es : List Element} {fuel len : Nat}

theorem objectLen_walk (hfew : es.length ≤ 2 ^ 31 - 8) (hfuel : es.length < fuel)
    (h : Visits complexLen Element.lenTrace es) :
    ∃ len, calculateParamObjectLen complexLen fuel es = .ok (len, .walk (lenSteps 0 es) (headerBytes es)) := by
  obtain ⟨lens, hlens, hloop⟩ := untilEnd_walk h [] hfuel
  have hloop' : untilEnd complexLen es fuel 0 = .ok (lens, stepsFrom Element.lenTrace 0 es, headerBytes es) := hloop
  rw [calculateParamObjectLen, hloop', ok_bind]
  dsimp only
  rw [if_neg (by omega), lenSteps_eq]
  exact ⟨_, rfl⟩

/-- The length of an object comes out as expected only if its elements are few, no interval is among them,
and each comes out as expected. -/
theorem objectLen_inv
    (h : calculateParamObjectLen complexLen fuel es = .ok (len, .walk (lenSteps 0 es) (headerBytes es))) :
    es.length ≤ 2 ^ 31 - 8 ∧ Visits complexLen Element.lenTrace es := by
  obtain ⟨⟨lens, steps, stop⟩, hloop, h⟩ := bind_eq_ok.mp h
  dsimp only at h
  by_cases hmany : 2 ^ 31 - 8 < lens.length
  · rw [if_pos hmany] at h
    cases h
  rw [if_neg hmany, lenSteps_eq] at h
  obtain ⟨-, rfl, rfl⟩ := h
  obtain ⟨hlens, hall⟩ := untilEnd_inv [] hloop
  exact ⟨by omega, hall⟩

theorem arrayLen_walk (hfew : es.length < 2 ^ 32) (hfuel : es.length < fuel)
    (h : Visits complexLen Element.lenTrace es) :
    ∃ len, calculateParamArrayLen complexLen fuel es = .ok (len, .walk (lenSteps 0 es) (headerBytes es)) := by
  obtain ⟨lens, hloop⟩ := countUp_walk h [] hfuel hfew
  have hloop' : countUp complexLen es es.length fuel 0 0 =
      .ok (lens, stepsFrom Element.lenTrace 0 es, headerBytes es) := hloop
  rw [calculateParamArrayLen, hloop', lenSteps_eq]
  exact ⟨_, rfl⟩

theorem arrayLen_inv
    (h : calculateParamArrayLen complexLen fuel es = .ok (len, .walk (lenSteps 0 es) (headerBytes es))) :
    es.length < 2 ^ 32 ∧ Visits complexLen Element.lenTrace es := by
  obtain ⟨⟨lens, steps, stop⟩, hloop, h⟩ := bind_eq_ok.mp h
  dsimp only at h
  rw [lenSteps_eq] at h
  obtain ⟨-, rfl, rfl⟩ := h
  have hfew : es.length < 2 ^ 32 := by
    by_contra hmany
    exact countUp_wraps (by omega) (by decide) _ hloop
  exact ⟨hfew, countUp_inv [] hfew hloop⟩

theorem objectStore_walk (hfew : es.length ≤ 2 ^ 31 - 8) (hfuel : es.length < fuel)
    (h : Visits (storeUnlessNull store) Element.storeTrace es) :
    ∃ bytes, storeParamObjectComplex store fuel es =
      .ok (bytes, .after (.walk (stepsFrom (fun _ => .leaf) 0 es) (headerBytes es))
        (.walk (storeSteps 0 es) (headerBytes es))) := by
  have hvisit : Visits (fun _ => .ok ((), .leaf)) (fun _ => .leaf) es := fun e he => ⟨(h e he).1, (), rfl⟩
  obtain ⟨seen, hseen, hcount⟩ := untilEnd_walk hvisit [] hfuel
  obtain ⟨stored, hloop⟩ := countUp_walk h [] hfuel (show es.length < 2 ^ 32 by omega)
  have hcount' : untilEnd (fun _ => .ok ((), Trace.leaf)) es fuel 0 =
      .ok (seen, stepsFrom (fun _ => .leaf) 0 es, headerBytes es) := hcount
  have hloop' : countUp (storeUnlessNull store) es es.length fuel 0 0 =
      .ok (stored, stepsFrom Element.storeTrace 0 es, headerBytes es) := hloop
  rw [storeParamObjectComplex, hcount', ok_bind]
  dsimp only
  rw [hseen, Nat.mod_eq_of_lt (by omega), hloop', storeSteps_eq]
  exact ⟨_, rfl⟩

theorem arrayStore_walk (hfew : es.length < 2 ^ 32) (hfuel : es.length < fuel) (maxrarrLen : Option Nat)
    (h : Visits (storeUnlessNull store) Element.storeTrace es) :
    ∃ bytes, storeParamArrayComplex store fuel maxrarrLen es = .ok (bytes, .walk (storeSteps 0 es) (headerBytes es)) := by
  obtain ⟨stored, hloop⟩ := countUp_walk h [] hfuel hfew
  have hloop' : countUp (storeUnlessNull store) es es.length fuel 0 0 =
      .ok (stored, stepsFrom Element.storeTrace 0 es, headerBytes es) := hloop
  unfold storeParamArrayComplex
  rw [hloop', storeSteps_eq]
  exact ⟨_, rfl⟩

end Passes

/-! ## the parameter -/

/-- A parameter of type `MYSQL_TYPE_OBJECT`: its outermost header is that of an object or of an array. The
passes do not ask whether it is null. -/
inductive NestedParam where
  | object (elements : List Element)
  | array (elements : List Element)

/-- `calculate_param_object_len` or `calculate_param_array_len`. -/
def NestedParam.calculateLen (fuel : Nat) : NestedParam → Except Fault (Nat × Trace)
  | .object es => calculateParamObjectLen (calculateParamComplexLen fuel) fuel es
  | .array es => calculateParamArrayLen (calculateParamComplexLen fuel) fuel es

/-- `store_param_object_complex` or `store_param_array_complex`. -/
def NestedParam.store (fuel : Nat) : NestedParam → Except Fault (List UInt8 × Trace)
  | .object es => storeParamObjectComplex (storeParamAllComplex fuel) fuel es
  | .array es => storeParamArrayComplex (storeParamAllComplex fuel) fuel none es

/-- The parameter as an element. -/
def NestedParam.element : NestedParam → Element
  | .object es => .object false es
  | .array es => .array false es

/-- Both passes over the parameter do what is expected. -/
def NestedParam.Walked (p : NestedParam) (fuel : Nat) : Prop :=
  (∃ len, p.calculateLen fuel = .ok (len, p.element.lenTrace)) ∧
    ∃ bytes, p.store fuel = .ok (bytes, p.element.storeTrace)

/-- Both passes do with an element what is expected, on any fuel from `n` on. -/
structure Passes (n : Nat) (e : Element) : Prop where
  len : ∀ fuel, n ≤ fuel → ∃ len, calculateParamComplexLen fuel e = .ok (len, e.lenTrace)
  store : ∀ fuel, n ≤ fuel → ∃ b, storeUnlessNull (storeParamAllComplex fuel) e = .ok (b, e.storeTrace)

theorem object_walked {n : Nat} {es : List Element} (hfew : es.length ≤ 2 ^ 31 - 8)
    (h : ∀ e ∈ es, ¬e.Interval ∧ Passes n e) :
    ∀ fuel, max n (es.length + 1) ≤ fuel → (NestedParam.object es).Walked fuel :=
  fun fuel hfuel => ⟨objectLen_walk hfew (by omega) fun e he => ⟨(h e he).1, (h e he).2.len fuel (by omega)⟩,
    objectStore_walk hfew (by omega) fun e he => ⟨(h e he).1, (h e he).2.store fuel (by omega)⟩⟩

theorem array_walked {n : Nat} {es : List Element} (hfew : es.length < 2 ^ 32)
    (h : ∀ e ∈ es, ¬e.Interval ∧ Passes n e) :
    ∀ fuel, max n (es.length + 1) ≤ fuel → (NestedParam.array es).Walked fuel :=
  fun fuel hfuel => ⟨arrayLen_walk hfew (by omega) fun e he => ⟨(h e he).1, (h e he).2.len fuel (by omega)⟩,
    arrayStore_walk hfew (by omega) none fun e he => ⟨(h e he).1, (h e he).2.store fuel (by omega)⟩⟩

theorem storeUnlessNull_of_store {store : Element → Except Fault (List UInt8 × Trace)} {bytes : List UInt8}
    {t : Trace} (hnull : e.isNull = false) (h : store e = .ok (bytes, t)) :
    storeUnlessNull store e = .ok ((false, bytes), t) := by
  rw [storeUnlessNull, if_neg (by rw [hnull]; decide), h]
  rfl

theorem passes_nested {p : NestedParam} {n : Nat} (h : ∀ fuel, n ≤ fuel → p.Walked fuel) :
    Passes (n + 1) p.element := by
  constructor <;> intro fuel hfuel <;> obtain ⟨fuel, rfl⟩ := Nat.exists_eq_add_of_le' (Nat.le_trans (Nat.le_add_left 1 n) hfuel)
  · obtain ⟨len, hlen⟩ := (h fuel (by omega)).1
    cases p <;> exact ⟨len, hlen⟩
  · obtain ⟨bytes, hbytes⟩ := (h fuel (by omega)).2
    cases p <;> exact ⟨_, storeUnlessNull_of_store rfl hbytes⟩

theorem passes_leaf (hlen : e.lenTrace = .leaf) (hstore : e.storeTrace = .leaf)
    (hl : ∀ fuel, ∃ len, calculateParamComplexLen (fuel + 1) e = .ok (len, .leaf))
    (hs : e.isNull = true ∨ ∀ fuel, ∃ bytes, storeParamAllComplex (fuel + 1) e = .ok (bytes, .leaf)) :
    Passes 1 e := by
  constructor <;> intro fuel hfuel <;> obtain ⟨fuel, rfl⟩ := Nat.exists_eq_add_of_le' hfuel
  · rw [hlen]
    exact hl fuel
  · rw [hstore]
    by_cases hnull : e.isNull = true
    · rw [storeUnlessNull, if_pos hnull]
      exact ⟨_, rfl⟩
    obtain ⟨bytes, hb⟩ := hs.resolve_left hnull fuel
    exact ⟨_, storeUnlessNull_of_store (Bool.eq_false_iff.mpr hnull) hb⟩

/-! ## the recursion over the tree -/

mutual

theorem inner_of_len : ∀ (e : Element) {fuel len : Nat}, calculateParamComplexLen fuel e = .ok (len, e.lenTrace) → e.Inner
  | .basic _ _, _, _, _ => trivial
  | .string _ _ _, _, _, _ => trivial
  | .object isNull es, 0, _, h => nomatch h
  | .array isNull es, 0, _, h => nomatch h
  | .object true es, fuel + 1, _, _ => .inl rfl
  | .array true es, fuel + 1, _, _ => .inl rfl
  | .object false es, fuel + 1, len, h => by
    obtain ⟨hfew, hall⟩ := objectLen_inv (show calculateParamObjectLen (calculateParamComplexLen fuel) fuel es = _ from h)
    exact .inr ⟨hfew, allSteady_of_len es hall⟩
  | .array false es, fuel + 1, len, h => by
    obtain ⟨hfew, hall⟩ := arrayLen_inv (show calculateParamArrayLen (calculateParamComplexLen fuel) fuel es = _ from h)
    exact .inr ⟨hfew, allSteady_of_len es hall⟩

theorem allSteady_of_len : ∀ (es : List Element) {fuel : Nat},
    Visits (calculateParamComplexLen fuel) Element.lenTrace es → AllSteady es
  | [], _, _ => trivial
  | e :: es, _, h => by
    obtain ⟨⟨hinterval, len, hlen⟩, h⟩ := forall_mem_cons.mp h
    exact ⟨⟨hinterval, inner_of_len e hlen⟩, allSteady_of_len es h⟩

end

mutual

theorem passes_of_inner : ∀ e : Element, e.Inner → ∃ n, Passes n e
  | .basic isNull _, _ | .string isNull _ _, _ => ⟨1, passes_leaf rfl rfl (fun fuel => by cases isNull <;> exact ⟨_, rfl⟩)
      (.inr fun fuel => ⟨_, rfl⟩)⟩
  | .object true _, _ | .array true _, _ => ⟨1, passes_leaf rfl rfl (fun fuel => ⟨_, rfl⟩) (.inl rfl)⟩
  | .object false es, h => by
    obtain ⟨hfew, hsteady⟩ := h.resolve_left nofun
    obtain ⟨n, hn⟩ := passes_of_allSteady es hsteady
    exact ⟨_, passes_nested (object_walked hfew hn)⟩
  | .array false es, h => by
    obtain ⟨hfew, hsteady⟩ := h.resolve_left nofun
    obtain ⟨n, hn⟩ := passes_of_allSteady es hsteady
    exact ⟨_, passes_nested (array_walked hfew hn)⟩

theorem passes_of_allSteady : ∀ es : List Element, AllSteady es → ∃ n, ∀ e ∈ es, ¬e.Interval ∧ Passes n e
  | [], _ => ⟨0, nofun⟩
  | e :: es, h => by
    obtain ⟨n, hn⟩ := passes_of_inner e h.1.2
    obtain ⟨m, hm⟩ := passes_of_allSteady es h.2
    refine ⟨max n m, forall_mem_cons.mpr ⟨⟨h.1.1, ?_⟩, fun d hd => ⟨(hm d hd).1, ?_⟩⟩⟩
    · exact ⟨fun fuel hfuel => hn.len fuel (by omega), fun fuel hfuel => hn.store fuel (by omega)⟩
    · exact ⟨fun fuel hfuel => (hm d hd).2.len fuel (by omega), fun fuel hfuel => (hm d hd).2.store fuel (by omega)⟩

end

/-- Both passes end; each visits every element of every row once and in order, with the cursor at the
element's own header, and leaves the cursor behind the last one. -/
def Walks (p : NestedParam) : Prop :=
  ∃ n, ∀ fuel, n ≤ fuel →
    (∃ len, p.calculateLen fuel = .ok (len, match p with
      | .object es | .array es => .walk (lenSteps 0 es) (headerBytes es))) ∧
    ∃ bytes, p.store fuel = .ok (bytes, match p with
      | .object es => .after (.walk (stepsFrom (fun _ => .leaf) 0 es) (headerBytes es))
          (.walk (storeSteps 0 es) (headerBytes es))
      | .array es => .walk (storeSteps 0 es) (headerBytes es))

/-- No row that is walked has an interval in it, and the counters hold the number of elements. -/
def NestedParam.Steady : NestedParam → Prop
  | .object es => es.length ≤ 2 ^ 31 - 8 ∧ AllSteady es
  | .array es => es.length < 2 ^ 32 ∧ AllSteady es

/-- **The nested parameters that are walked element by element are those without intervals.** -/
theorem walks_iff (p : NestedParam) : Walks p ↔ p.Steady := by
  constructor
  · rintro ⟨n, hn⟩
    obtain ⟨⟨len, hlen⟩, -⟩ := hn n le_rfl
    cases p with
    | object es => exact (objectLen_inv hlen).imp_right (allSteady_of_len es)
    | array es => exact (arrayLen_inv hlen).imp_right (allSteady_of_len es)
  · intro h
    cases p with
    | object es =>
      obtain ⟨n, hn⟩ := passes_of_allSteady es h.2
      exact ⟨_, object_walked h.1 hn⟩
    | array es =>
      obtain ⟨n, hn⟩ := passes_of_allSteady es h.2
      exact ⟨_, array_walked h.1 hn⟩

/-- **An object with one interval is walked forever**: on no fuel does the computation of its length end. -/
theorem interval_object_stuck : ¬Walks (.object [.basic false (.obIntervalYm (.ym 1 3 6 2))]) ∧
    ∀ fuel, ¬∃ r, (NestedParam.object [.basic false (.obIntervalYm (.ym 1 3 6 2))]).calculateLen fuel = .ok r := by
  have hstuck : ∀ fuel, ¬∃ r, (NestedParam.object [.basic false (.obIntervalYm (.ym 1 3 6 2))]).calculateLen fuel = .ok r := by
    rintro fuel ⟨r, hr⟩
    obtain ⟨loop, hloop, -⟩ := bind_eq_ok.mp hr
    exact untilEnd_stuck (.inl rfl) [] [] fuel loop hloop
  refine ⟨?_, hstuck⟩
  rintro ⟨n, hn⟩
  obtain ⟨⟨len, hlen⟩, -⟩ := hn n le_rfl
  exact hstuck n ⟨_, hlen⟩

end ObConnector.Stmt.Param
