/-
# ObConnector.Stmt.ComplexSize -- a fetch that counts the room it needs, whatever room it has.

An application asks for an object with a buffer that may be too small, reads the length the fetch
reports and asks again. This works when the length does not depend on the buffer, the flag says exactly
that the buffer was too small, and the row is left at the same place. The fetch is recursive over types
that the row does not describe and may move from the buffer to the arena in the middle of a value.

The argument has one notion. A piece of the fetch is `Metered` when the row alone fixes its result, a
fault or the number of bytes it hands out with the place where it leaves the row, for every state of the
bind that is `Sound`: the length is the offset, the flag says that it exceeds the buffer, and without
the flag the pieces tile the buffer up to it. Each function of the fetch is metered, the recursion by
induction on its fuel, which the bytes of the row bound. One type the fetch makes up itself: the elements
of an anonymous array of objects have no names, and the first element that is not NULL asks for them
(`sizedFetch_iff`).
-/
import ObConnector.Stmt.ComplexFetch

namespace ObConnector.Stmt.Complex

open Lib Net List

/-! ## reading the row

`Ends x post`: the computation `x` does not run out of fuel, and `post` holds of what it gives. -/

section Reading

variable {α β : Type}

/-- A computation on the row that ends, with what it gives. -/
def Ends (x : Except Fault α) (post : α → Prop) : Prop :=
  x ≠ .error .outOfFuel ∧ ∀ a, x = .ok a → post a

theorem ends_ok {a : α} {post : α → Prop} (h : post a) : Ends (.ok a) post := by
  refine ⟨nofun, ?_⟩
  intro b hb
  cases hb
  exact h

theorem ends_error {e : Fault} {post : α → Prop} (he : e ≠ .outOfFuel) : Ends (.error e : Except Fault α) post :=
  ⟨fun h => he (Except.error.inj h), nofun⟩

theorem Ends.bind {x : Except Fault α} {f : α → Except Fault β} {mid : α → Prop} {post : β → Prop}
    (hx : Ends x mid) (hf : ∀ a, mid a → Ends (f a) post) : Ends (x >>= f) post := by
  cases x with
  | error e => exact ends_error fun he => hx.1 (congrArg _ he)
  | ok a => exact hf a (hx.2 a rfl)

theorem ends_ite {c : Prop} [Decidable c] {x y : Except Fault α} {post : α → Prop} (hx : c → Ends x post)
    (hy : ¬c → Ends y post) : Ends (if c then x else y) post := by
  split
  · exact hx ‹_›
  · exact hy ‹_›

end Reading

section Row

variable (packet : List UInt8)

theorem readAt_ends (off : Int) (n : Nat) : Ends (readAt packet off n) fun _ => True := by
  unfold readAt
  refine ends_ite (fun _ => ends_ok trivial) (fun _ => ends_error (by decide))

/-- A load ends, and succeeds only inside the packet. -/
theorem loadNat_ends (pos : Nat) (k : Nat) : Ends (loadNat packet pos k) fun _ => pos + k ≤ packet.length := by
  have hread : Ends (readAt packet pos k) fun _ => pos + k ≤ packet.length := by
    refine ⟨(readAt_ends packet pos k).1, ?_⟩
    intro bs hbs
    have hin := (readAt_eq_ok_iff.mp hbs).1.2
    omega
  exact hread.bind fun _ h => ends_ok h

theorem loadNat_one_iff {pos n : Nat} :
    loadNat packet pos 1 = .ok n ↔ ∃ b, packet[pos]? = some b ∧ b.toNat = n := by
  have hslice (h : pos < packet.length) : sliceAt packet pos 1 = [packet[pos]] := by
    rw [sliceAt, Int.toNat_natCast, drop_eq_getElem_cons h]
    rfl
  rw [loadNat, bind_eq_ok]
  constructor
  · rintro ⟨bs, hbs, hn⟩
    obtain ⟨hin, rfl⟩ := readAt_eq_ok_iff.mp hbs
    have h : pos < packet.length := by omega
    rw [hslice h] at hn
    cases hn
    exact ⟨packet[pos], getElem?_eq_getElem h, by simp⟩
  · rintro ⟨b, hb, rfl⟩
    obtain ⟨h, rfl⟩ := List.getElem?_eq_some_iff.mp hb
    refine ⟨[packet[pos]], readAt_eq_ok_iff.mpr ⟨by omega, hslice h⟩, by simp⟩

theorem netFieldLength_ends (row : Nat) : Ends (netFieldLength packet row) fun r => row < r.2 := by
  refine (loadNat_ends packet row 1).bind fun b _ => ?_
  refine ends_ite (fun _ => ends_ok (by dsimp only; omega)) fun _ => ?_
  refine ends_ite (fun _ => ends_ok (by dsimp only; omega)) fun _ => ?_
  refine ends_ite (fun _ => ?_) fun _ => ends_ite (fun _ => ?_) fun _ => ?_
  all_goals exact (loadNat_ends packet _ _).bind fun _ _ => ends_ok (by dsimp only; omega)

theorem readTimeOfDay_ends (length row : Nat) : Ends (readTimeOfDay packet length row) fun _ => True := by
  refine ends_ite (fun _ => ?_) fun _ => ends_ok trivial
  iterate 3 refine (loadNat_ends packet _ _).bind fun _ _ => ?_
  exact ends_ok trivial

theorem readSecondPart_ends (length row : Nat) : Ends (readSecondPart packet length row) fun _ => True := by
  refine ends_ite (fun _ => ?_) fun _ => ends_ok trivial
  exact (loadNat_ends packet _ _).bind fun _ _ => ends_ok trivial

theorem readBinaryDatetime_ends (row : Nat) : Ends (readBinaryDatetime packet row) fun r => row ≤ r.2 := by
  refine (netFieldLength_ends packet row).bind fun r hr => ?_
  refine ends_ite (fun _ => ends_ok (by dsimp only; omega)) fun _ => ?_
  refine (loadNat_ends packet _ _).bind fun year _ => ?_
  refine (loadNat_ends packet _ _).bind fun month _ => ?_
  refine (loadNat_ends packet _ _).bind fun day _ => ?_
  refine (readTimeOfDay_ends packet _ _).bind fun time _ => ?_
  exact (readSecondPart_ends packet _ _).bind fun part _ => ends_ok (by dsimp only; omega)

theorem readBinaryInterval_ends (type : EnumTypes) (row : Nat) :
    Ends (readBinaryInterval packet type row) fun r => row ≤ r.2 := by
  refine (netFieldLength_ends packet row).bind fun r hr => ?_
  refine ends_ite (fun _ => ?_) fun _ => ends_ite (fun _ => ?_) fun _ => ends_ok (by dsimp only; omega)
  · iterate 8 refine (loadNat_ends packet _ _).bind fun _ _ => ?_
    exact ends_ok (by dsimp only; omega)
  · iterate 4 refine (loadNat_ends packet _ _).bind fun _ _ => ?_
    exact ends_ok (by dsimp only; omega)

theorem readZone_ends (bufferlen offset pos : Nat) :
    Ends (readZone packet bufferlen offset pos) fun r => pos ≤ r.2.2 := by
  refine (loadNat_ends packet _ _).bind fun tzLength _ => ?_
  refine ends_ite (fun _ => ?_) fun _ => ends_ok (by dsimp only; omega)
  exact (readAt_ends packet _ _).bind fun _ _ => ends_ok (by dsimp only; omega)

theorem readOracleTime_ends (length bufferlen row : Nat) :
    Ends (readOracleTime packet length bufferlen row) fun r => row ≤ r.2 := by
  refine ends_ite (fun _ => ends_ok le_rfl) fun _ => ?_
  refine ends_ite (fun _ => ends_error (by decide)) fun _ => ?_
  iterate 9 refine (loadNat_ends packet _ _).bind fun _ _ => ?_
  refine ends_ite (fun _ => ?_) fun _ => ends_ok (by dsimp only; omega)
  iterate 2 refine (loadNat_ends packet _ _).bind fun _ _ => ?_
  refine (readZone_ends packet _ _ _).bind fun name hname => ?_
  refine (readZone_ends packet _ _ _).bind fun abbr habbr => ?_
  have habbr' : name.2.2 ≤ abbr.2.2 := habbr
  exact ends_ok (show row ≤ abbr.2.2 by omega)

end Row

/-! ## the state of the bind -/

/-- The bytes of the buffer that a piece takes. -/
def Region.span (r : Region) : Span := ⟨r.start.offset, r.length⟩

/-- The pieces are all in the caller's buffer and tile its first `total` bytes. -/
def TilesBuffer (regions : List Region) (total : Nat) : Prop :=
  (∀ r ∈ regions, r.start.place = .buffer) ∧ Tiles (regions.map Region.span) total

/-- **The invariant of the allocator.** -/
structure Sound (p : MysqlBind) : Prop where
  offset : p.offset = p.length
  flag : p.error = true ↔ p.bufferLength < p.length
  tiled : p.error = false → TilesBuffer p.regions p.length

/-- `p'` is sound and has `size` bytes more than `p`. -/
structure Grown (p p' : MysqlBind) (size : Nat) : Prop where
  sound : Sound p'
  length : p'.length = p.length + size
  bufferLength : p'.bufferLength = p.bufferLength

/-- `p'` differs from `p` in the memory only. -/
structure Quiet (p p' : MysqlBind) : Prop where
  bufferLength : p'.bufferLength = p.bufferLength
  length : p'.length = p.length
  error : p'.error = p.error
  offset : p'.offset = p.offset
  regions : p'.regions = p.regions

namespace Quiet

variable {p p' p'' : MysqlBind}

theorem refl (p : MysqlBind) : Quiet p p := ⟨rfl, rfl, rfl, rfl, rfl⟩

theorem trans (h : Quiet p p') (h' : Quiet p' p'') : Quiet p p'' :=
  ⟨h'.1.trans h.1, h'.2.trans h.2, h'.3.trans h.3, h'.4.trans h.4, h'.5.trans h.5⟩

theorem symm (h : Quiet p p') : Quiet p' p := ⟨h.1.symm, h.2.symm, h.3.symm, h.4.symm, h.5.symm⟩

theorem setHeader (p : MysqlBind) (q : Ptr) (f : Header → Header) : Quiet p (p.setHeader q f) :=
  ⟨rfl, rfl, rfl, rfl, rfl⟩

theorem setData (p : MysqlBind) (q : Ptr) (d : Datum) : Quiet p (p.setData q d) := ⟨rfl, rfl, rfl, rfl, rfl⟩

theorem sound (h : Quiet p p') (hs : Sound p) : Sound p' := by
  refine ⟨?_, ?_, ?_⟩
  · rw [h.offset, h.length, hs.offset]
  · rw [h.error, h.bufferLength, h.length, hs.flag]
  · rw [h.error, h.regions, h.length]
    exact hs.tiled

/-- Writes before and after a growth do not count. -/
theorem grown {size : Nat} (h : Quiet p p') (hg : Grown p' p'' size) : Grown p p'' size :=
  ⟨hg.sound, by rw [hg.length, h.length], by rw [hg.bufferLength, h.bufferLength]⟩

end Quiet

variable {p : MysqlBind}

theorem Grown.quiet {p' p'' : MysqlBind} {size : Nat} (hg : Grown p p' size) (h : Quiet p' p'') :
    Grown p p'' size :=
  ⟨h.sound hg.sound, by rw [h.length, hg.length], by rw [h.bufferLength, hg.bufferLength]⟩

theorem Grown.trans {p' p'' : MysqlBind} {size size' : Nat} (h : Grown p p' size) (h' : Grown p' p'' size') :
    Grown p p'' (size + size') :=
  ⟨h'.sound, by rw [h'.length, h.length, add_assoc], by rw [h'.bufferLength, h.bufferLength]⟩

theorem Sound.grown (h : Sound p) : Grown p p 0 := ⟨h, rfl, rfl⟩

/-- The choice of the piece touches the flag only, raises it exactly when the new length is too much, and
stays in the buffer while it is not raised. -/
theorem chooseBuffer_spec (hs : Sound p) (total length : Nat) :
    (chooseBuffer { p with length := total } length).2.bufferLength = p.bufferLength ∧
      (chooseBuffer { p with length := total } length).2.length = total ∧
      (chooseBuffer { p with length := total } length).2.offset = p.offset ∧
      (chooseBuffer { p with length := total } length).2.regions = p.regions ∧
      ((chooseBuffer { p with length := total } length).2.error = true ↔ p.bufferLength < p.offset + length) ∧
      ((chooseBuffer { p with length := total } length).2.error = false → p.error = false ∧
        (chooseBuffer { p with length := total } length).1 = ⟨.buffer, p.offset⟩) := by
  have hflag := hs.flag
  rw [← hs.offset] at hflag
  unfold chooseBuffer
  by_cases herror : p.error = true
  · rw [if_pos herror]
    refine ⟨rfl, rfl, rfl, rfl, ⟨fun _ => by have := hflag.mp herror; omega, fun _ => herror⟩, ?_⟩
    intro hno
    exact absurd hno (by simp [herror])
  rw [if_neg herror]
  by_cases hfull : p.bufferLength < p.offset + length
  · rw [if_pos hfull]
    exact ⟨rfl, rfl, rfl, rfl, ⟨fun _ => hfull, fun _ => rfl⟩, nofun⟩
  rw [if_neg hfull]
  refine ⟨rfl, rfl, rfl, rfl, ⟨fun h => absurd h herror, fun h => absurd h hfull⟩, ?_⟩
  intro hno
  exact ⟨hno, rfl⟩

variable {length : Nat}

/-- **The allocator keeps its invariant**, in the buffer, at the moment the buffer is full, and in the
arena. -/
theorem allocSpace_grown (hs : Sound p) (header : Ptr) (hl : length ≤ maxObject) :
    ∃ buffer p', fetchResultComplexAllocSpace header p length = .ok (buffer, p') ∧ Grown p p' length := by
  have hspec := chooseBuffer_spec hs (p.length + length) length
  rcases hq : chooseBuffer { p with length := p.length + length } length with ⟨buffer, q⟩
  rw [hq] at hspec
  obtain ⟨hbuffer, hlength, hoffset, hregions, hflag, hplace⟩ := hspec
  dsimp only at hplace
  rw [fetchResultComplexAllocSpace, if_neg (by omega), hq]
  refine ⟨_, _, rfl, ⟨⟨?_, ?_, ?_⟩, hlength, hbuffer⟩⟩
  · show q.offset + length = q.length
    rw [hoffset, hlength, hs.offset]
  · show q.error = true ↔ q.bufferLength < q.length
    rw [hflag, hbuffer, hlength, hs.offset]
  · intro hno
    obtain ⟨hno', hstart⟩ := hplace hno
    obtain ⟨hin, htiles⟩ := hs.tiled hno'
    show TilesBuffer (q.regions ++ [⟨buffer, length⟩]) q.length
    rw [hregions, hlength, hstart]
    refine ⟨?_, ?_⟩
    · intro r hr
      rcases mem_append.mp hr with hr | hr
      · exact hin r hr
      · rw [mem_singleton.mp hr]
    · rw [map_append, hs.offset]
      exact htiles.concat length

/-! ## metered functions -/

/-- What the row fixes: a fault, or the bytes handed out and the place where the row goes on. -/
def Outcome (m : Except Fault (Nat × Nat)) (p : MysqlBind) (r : Except Fault (MysqlBind × Nat)) : Prop :=
  match m with
  | .error e => r = .error e
  | .ok (size, stop) => ∃ p', r = .ok (p', stop) ∧ Grown p p' size

/-- `f`, started at `row`, does the same to every sound bind that `pre` allows. `enough` is the condition
on the fuel under which it ends. -/
def Metered {ι : Type} (enough : Prop) (row : Nat) (pre : ι → MysqlBind → Prop)
    (f : ι → MysqlBind → Except Fault (MysqlBind × Nat)) : Prop :=
  ∃ m : Except Fault (Nat × Nat), (enough → m ≠ .error .outOfFuel) ∧ (∀ size stop, m = .ok (size, stop) → row ≤ stop) ∧
    ∀ i p, Sound p → pre i p → Outcome m p (f i p)

section Rules

variable {ι κ α : Type} {enough enough' : Prop} {row row' : Nat} {pre pre' : ι → MysqlBind → Prop}
  {f : ι → MysqlBind → Except Fault (MysqlBind × Nat)}

theorem metered_error {e : Fault} (he : enough → e ≠ .outOfFuel) (hf : ∀ i p, pre i p → f i p = .error e) :
    Metered enough row pre f :=
  ⟨.error e, fun h heq => he h (Except.error.inj heq), nofun, fun i p _ hp => hf i p hp⟩

/-- A function that only writes to the memory. -/
theorem metered_quiet (finish : ι → MysqlBind → MysqlBind) (hquiet : ∀ i p, pre i p → Quiet p (finish i p))
    (hrow : row ≤ row') : Metered enough row pre fun i p => .ok (finish i p, row') := by
  refine ⟨.ok (0, row'), fun _ => nofun, ?_, ?_⟩
  · intro size stop h
    cases h
    exact hrow
  · intro i p hs hp
    exact ⟨finish i p, rfl, hs.grown.quiet (hquiet i p hp)⟩

theorem Metered.mono (h : Metered enough row' pre f) (henough : enough' → enough) (hrow : row ≤ row')
    (hpre : ∀ i p, pre' i p → pre i p) : Metered enough' row pre' f := by
  obtain ⟨m, hfuel, hstop, hm⟩ := h
  refine ⟨m, fun he => hfuel (henough he), ?_, ?_⟩
  · intro size stop heq
    exact le_trans hrow (hstop size stop heq)
  · intro i p hs hp
    exact hm i p hs (hpre i p hp)

theorem Metered.from_earlier (h : Metered enough row' pre f) (hrow : row ≤ row') : Metered enough row pre f :=
  h.mono id hrow fun _ _ h => h

/-- A step that reads the row only. -/
theorem metered_bind {x : Except Fault α} {mid : α → Prop} {f : α → ι → MysqlBind → Except Fault (MysqlBind × Nat)}
    (hx : Ends x mid) (hf : ∀ a, x = .ok a → mid a → Metered enough row pre (f a)) :
    Metered enough row pre fun i p => x >>= fun a => f a i p := by
  cases hx' : x with
  | error e => exact metered_error (fun _ he => hx.1 (by rw [hx', he])) fun _ _ _ => rfl
  | ok a => exact hf a hx' (hx.2 a hx')

variable {g : κ → MysqlBind → Except Fault (MysqlBind × Nat)}

/-- **What follows a growth by a fixed number of bytes is metered if the rest is.** -/
theorem Metered.behind {mid : κ → MysqlBind → Prop} (h : Metered enough row' mid g) (hrow : row ≤ row')
    (size : Nat) (hf : ∀ i p, Sound p → pre i p → ∃ k p', Grown p p' size ∧ mid k p' ∧ f i p = g k p') :
    Metered enough row pre f := by
  obtain ⟨m, hfuel, hstop, hm⟩ := h
  refine ⟨m.map fun s => (size + s.1, s.2), ?_, ?_, ?_⟩
  · intro he heq
    cases m with
    | error e => exact hfuel he (by cases heq; rfl)
    | ok s => cases heq
  · intro s t heq
    cases m with
    | error e => cases heq
    | ok s' =>
      cases heq
      exact le_trans hrow (hstop _ _ rfl)
  · intro i p hs hp
    obtain ⟨k, p', hgrown, hmid, heq⟩ := hf i p hs hp
    have hout := hm k p' hgrown.sound hmid
    rw [heq]
    match m, hout with
    | .error e, hout => exact hout
    | .ok _, ⟨p'', hp'', hgrown'⟩ => exact ⟨p'', hp'', hgrown.trans hgrown'⟩

theorem Metered.congr {g : ι → MysqlBind → Except Fault (MysqlBind × Nat)} (h : Metered enough row pre g)
    (heq : ∀ i p, pre i p → f i p = g i p) : Metered enough row pre f :=
  h.behind (le_refl _) 0 fun i p hs hp => ⟨i, p, hs.grown, hp, heq i p hp⟩

/-- Writes to the memory before a metered function; they may establish what it needs. -/
theorem Metered.after {mid : κ → MysqlBind → Prop} (h : Metered enough row mid g) (φ : ι → κ)
    (write : ι → MysqlBind → MysqlBind) (hwrite : ∀ i p, pre i p → Quiet p (write i p) ∧ mid (φ i) (write i p)) :
    Metered enough row pre fun i p => g (φ i) (write i p) :=
  h.behind (le_refl _) 0 fun i p hs hp =>
    ⟨φ i, write i p, hs.grown.quiet (hwrite i p hp).1, (hwrite i p hp).2, rfl⟩

theorem Metered.comap {mid : κ → MysqlBind → Prop} (h : Metered enough row mid g) (φ : ι → κ) :
    Metered enough row (fun i => mid (φ i)) fun i => g (φ i) :=
  h.after φ (fun _ p => p) fun _ p hp => ⟨Quiet.refl p, hp⟩

/-- One metered function after another: the second starts where the first has left the row. -/
theorem Metered.seq {g : Nat → κ → MysqlBind → Except Fault (MysqlBind × Nat)} (h : Metered enough row pre f)
    (φ : ι → κ) (hg : ∀ stop, row ≤ stop → Metered enough stop (fun _ _ => True) (g stop)) :
    Metered enough row pre fun i p => f i p >>= fun r => g r.2 (φ i) r.1 := by
  obtain ⟨m, hfuel, hstop, hm⟩ := h
  match m, hm with
  | .error e, hm =>
    refine ⟨.error e, hfuel, nofun, ?_⟩
    intro i p hs hp
    have hf : f i p = .error e := hm i p hs hp
    show f i p >>= _ = _
    rw [hf, error_bind]
  | .ok (size, stop), hm =>
    have hle := hstop size stop rfl
    refine (hg stop hle).behind hle size fun i p hs hp => ?_
    obtain ⟨p', hp', hgrown⟩ := hm i p hs hp
    exact ⟨φ i, p', hgrown, trivial, by rw [hp', ok_bind]⟩

/-- An allocation and what is done with the piece. -/
theorem metered_allocSpace (length : Nat) (φ : ι → Ptr) {g : ι × Ptr → MysqlBind → Except Fault (MysqlBind × Nat)}
    (hg : Metered enough row (fun _ _ => True) g) : Metered enough row pre fun i p =>
      fetchResultComplexAllocSpace (φ i) p length >>= fun r => g (i, r.1) r.2 := by
  by_cases hl : length ≤ maxObject
  · refine hg.behind le_rfl length fun i p hs _ => ?_
    obtain ⟨buffer, p', halloc, hgrown⟩ := allocSpace_grown hs (φ i) hl
    exact ⟨(i, buffer), p', hgrown, trivial, by rw [halloc, ok_bind]⟩
  refine metered_error (e := .writeOutside) (fun _ => by decide) ?_
  intro i p _
  rw [fetchResultComplexAllocSpace, if_pos (by omega), error_bind]

end Rules

/-! ## the scalars are metered -/

variable {row : Nat}

section Scalars

variable (packet : List UInt8) {enough : Prop} {pre : Ptr → MysqlBind → Prop}

/-- What starts with a length starts behind it. -/
theorem metered_netFieldLength {f : Nat × Nat → Ptr → MysqlBind → Except Fault (MysqlBind × Nat)}
    (hf : ∀ length start, Metered enough start pre (f (length, start))) :
    Metered enough row pre fun h p => netFieldLength packet row >>= fun r => f r h p :=
  metered_bind (netFieldLength_ends packet row) fun r _ hr => (hf r.1 r.2).from_earlier (le_of_lt hr)

/-- The shape that all scalars share: a piece of a length the row fixes, then a read of the row and writes
to the memory. -/
theorem metered_scalar {α : Type} {read : Except Fault α} (stop : α → Nat)
    (hread : Ends read fun a => row ≤ stop a) (finish : α → Ptr × Ptr → MysqlBind → MysqlBind)
    (hquiet : ∀ a i p, Quiet p (finish a i p)) :
    Metered enough row pre fun header p => fetchResultComplexAllocSpace header p length >>= fun r =>
      read >>= fun a => .ok (finish a (header, r.1) r.2, stop a) := by
  have hrest : Metered enough row (fun _ _ => True) fun i p =>
      read >>= fun a => .ok (finish a i p, stop a) := by
    refine metered_bind hread fun a _ ha => ?_
    exact metered_quiet _ (fun i p _ => hquiet a i p) ha
  exact metered_allocSpace length id hrest

theorem str_metered (row : Nat) : Metered enough row pre fun h p => fetchResultStrComplex packet h p row := by
  refine metered_netFieldLength packet fun length start => ?_
  exact metered_scalar (fun _ => start + length) ⟨(readAt_ends packet start length).1, fun _ _ => Nat.le_add_right _ _⟩
    (fun c i p => (p.setData i.2 (.bytes (c ++ [0]))).setHeader i.1 fun h => { h with length := length })
    fun _ _ _ => (Quiet.setData _ _ _).trans (Quiet.setHeader _ _ _)

theorem bin_metered (row : Nat) : Metered enough row pre fun h p => fetchResultBinComplex packet h p row := by
  refine metered_netFieldLength packet fun length start => ?_
  exact metered_scalar (fun _ => start + length) ⟨(readAt_ends packet start length).1, fun _ _ => Nat.le_add_right _ _⟩
    (fun c i p => (p.setData i.2 (.bytes c)).setHeader i.1 fun h => { h with length := length })
    fun _ _ _ => (Quiet.setData _ _ _).trans (Quiet.setHeader _ _ _)

theorem fixed_metered (width row : Nat) :
    Metered enough row pre fun h p => fetchResultFixedComplex packet width h p row := by
  exact metered_scalar (fun _ => row + width) ⟨(readAt_ends packet row width).1, fun _ _ => Nat.le_add_right _ _⟩
    (fun c i p => p.setData i.2 (.bytes c)) fun _ _ _ => Quiet.setData _ _ _

theorem datetime_metered (row : Nat) :
    Metered enough row pre fun h p => fetchResultDatetimeComplex packet h p row := by
  exact metered_scalar Prod.snd (readBinaryDatetime_ends packet row)
    (fun r i p => p.setData i.2 (.datetime r.1)) fun _ _ _ => Quiet.setData _ _ _

/-- A scalar whose bytes may say nothing leaves its piece cleared. -/
theorem Quiet.elim {α : Type} (tm : Option α) (p : MysqlBind) (q : Ptr) (f : α → Datum) :
    Quiet p (tm.elim p fun t => p.setData q (f t)) := by
  cases tm with
  | none => exact Quiet.refl p
  | some t => exact Quiet.setData _ _ _

theorem interval_metered (type : EnumTypes) (row : Nat) :
    Metered enough row pre fun h p => fetchResultObIntervalComplex packet type h p row := by
  exact metered_scalar Prod.snd (readBinaryInterval_ends packet type row)
    (fun r i p => r.1.elim p fun t => p.setData i.2 (.interval t)) fun r i p => Quiet.elim r.1 p i.2 _

theorem timestamp_metered (row : Nat) :
    Metered enough row pre fun h p => fetchResultObTimestampComplex packet h p row := by
  refine metered_netFieldLength packet fun length start => ?_
  exact metered_scalar Prod.snd (readOracleTime_ends packet length ((sizeofOracleTime + length) % 2 ^ 64) start)
    (fun r i p => r.1.elim p fun t => p.setData i.2 (.timestamp t)) fun r i p => Quiet.elim r.1 p i.2 _

end Scalars

/-! ## the type tree -/

/-- The children of a type. -/
def ComplexType.children : ComplexType → List ChildType
  | .object child => child
  | .collection child => [child]
  | .xmltype child => [child]

/-- The child is an object or an array, described by a type of its own. -/
def ChildType.Nested (c : ChildType) : Prop := c.type = .object ∨ c.type = .collection

/-- `fetch_result_complex` handles the kind of the child, and the type of an object or an array is known. -/
structure Handled (types : Types) (c : ChildType) : Prop where
  kind : filledType c.type ≠ none
  object : c.type = .object → ∃ name child, c.object = some name ∧ types name = some (.object child)
  collection : c.type = .collection → ∃ name child, c.object = some name ∧ types name = some (.collection child)

/-- `d` stands in the tree of types under `c`. -/
inductive Below (types : Types) : ChildType → ChildType → Prop
  | refl (c : ChildType) : Below types c c
  | step {c d e : ChildType} {name : TypeName} {t : ComplexType} : c.Nested → c.object = some name →
      types name = some t → e ∈ t.children → Below types e d → Below types c d

/-- Every kind in the type tree under `c` is handled. -/
def HandledTree (types : Types) (c : ChildType) : Prop := ∀ d, Below types c d → Handled types d

variable {name : TypeName}

section Tree

variable {types : Types} {c : ChildType}

theorem HandledTree.handled (h : HandledTree types c) : Handled types c := h c (.refl c)

theorem HandledTree.child (h : HandledTree types c) (hc : c.Nested) {t : ComplexType}
    (hname : c.object = some name) (ht : types name = some t) {e : ChildType} (he : e ∈ t.children) :
    HandledTree types e := fun d hd => h d (.step hc hname ht he hd)

/-- The header at `h` carries the names of the child's type. -/
def NamedAs (c : ChildType) (h : Ptr) (p : MysqlBind) : Prop := c.Nested → (p.headers h).name = c.object

end Tree

/-- What `fill_complex_type` does for a kind that is handled. -/
theorem fillComplexType_spec {c : ChildType} (hc : filledType c.type ≠ none) (p : MysqlBind) (b : Ptr) :
    Quiet p (fillComplexType p b c) ∧ NamedAs c b (fillComplexType p b c) := by
  unfold fillComplexType
  obtain ⟨type, htype⟩ := Option.ne_none_iff_exists'.mp hc
  rw [htype]
  dsimp only
  by_cases hnested : c.type = .object ∨ c.type = .collection
  · rw [if_pos hnested]
    refine ⟨Quiet.setHeader _ _ _, fun _ => ?_⟩
    cases hobject : c.object <;> simp [MysqlBind.setHeader, Header.name]
  · rw [if_neg hnested]
    exact ⟨Quiet.setHeader _ _ _, fun h => absurd h hnested⟩

/-! ## the recursion -/

variable {c : ChildType}

section Nested

variable {types : Types} {packet : List UInt8} {fetch : Fetcher} {enough enough' : Prop}

theorem metered_fill {ι : Type} (hc : Handled types c) (φ : ι → Ptr)
    {g : ι → MysqlBind → Except Fault (MysqlBind × Nat)}
    (hg : Metered enough row (fun i p => NamedAs c (φ i) p) g) :
    Metered enough row (fun _ _ => True) fun i p => g i (fillComplexType p (φ i) c) := by
  refine hg.behind le_rfl 0 fun i p hs _ => ?_
  obtain ⟨hquiet, hnamed⟩ := fillComplexType_spec hc.kind p (φ i)
  exact ⟨i, _, hs.grown.quiet hquiet, hnamed, rfl⟩

theorem fetchUnlessNull_metered {isNull : Bool} (h : Metered enough row (NamedAs c) fun b p => fetch c b p row) :
    Metered enough row (NamedAs c) fun b p => fetchUnlessNull fetch isNull c b p row := by
  cases isNull with
  | true => exact metered_quiet _ (fun b p _ => Quiet.setHeader p b _) le_rfl
  | false => exact h

variable {cs : List ChildType}

/-- **The loop over the children is metered** when the fetch of each child is. The fuel matters only if
the null bits are in the packet at all. -/
theorem fetchChildren_metered {start : Nat} (hcs : ∀ c ∈ cs, Handled types c)
    (hfetch : ∀ c ∈ cs, ∀ row, start ≤ row → Metered enough row (NamedAs c) fun h p => fetch c h p row)
    {nullPtr : Nat} (bit : Nat) (hrow : start ≤ row) (henough : enough' → nullPtr < packet.length → enough) :
    Metered enough' row (fun _ _ => True) fun b p => fetchChildren packet fetch cs b nullPtr bit p row := by
  induction cs generalizing nullPtr bit row with
  | nil => exact metered_quiet (fun _ p => p) (fun _ p _ => Quiet.refl p) le_rfl
  | cons c cs ih =>
    have hc := hcs c (mem_cons_self ..)
    have hcs' : ∀ d ∈ cs, Handled types d := fun d hd => hcs d (mem_cons_of_mem _ hd)
    have hfetch' : ∀ d ∈ cs, ∀ row, start ≤ row → Metered enough row (NamedAs d) fun h p => fetch d h p row :=
      fun d hd => hfetch d (mem_cons_of_mem _ hd)
    refine metered_fill (g := fun b p => loadNat packet nullPtr 1 >>= fun nulls =>
      fetchUnlessNull fetch (nulls &&& bit ≠ 0) c b p row >>= fun r =>
        if bit * 2 % 256 = 0 then
          fetchChildren packet fetch cs (b.add (getComplexHeaderLength c.type)) (nullPtr + 1) 1 r.1 r.2
        else fetchChildren packet fetch cs (b.add (getComplexHeaderLength c.type)) nullPtr (bit * 2 % 256) r.1 r.2)
      hc id ?_
    refine metered_bind (loadNat_ends packet nullPtr 1) fun nulls _ hin => ?_
    have henough' : enough' → enough := fun h => henough h (by omega)
    have hone : Metered enough' row (NamedAs c) fun b p => fetchUnlessNull fetch (nulls &&& bit ≠ 0) c b p row :=
      fetchUnlessNull_metered ((hfetch c (mem_cons_self ..) row hrow).mono henough' le_rfl fun _ _ h => h)
    refine hone.seq (g := fun stop b p => if bit * 2 % 256 = 0 then fetchChildren packet fetch cs b (nullPtr + 1) 1 p stop
      else fetchChildren packet fetch cs b nullPtr (bit * 2 % 256) p stop)
      (fun b => b.add (getComplexHeaderLength c.type)) fun stop hstop => ?_
    by_cases hlast : bit * 2 % 256 = 0
    · simp only [hlast]
      exact ih hcs' hfetch' _ (by omega) fun h _ => henough' h
    simp only [hlast]
    exact ih hcs' hfetch' _ (by omega) fun h _ => henough' h

/-- The children of an object, or the elements of an array, behind their allocation. -/
theorem block_metered {start : Nat} (hcs : ∀ c ∈ cs, Handled types c)
    (hfetch : ∀ c ∈ cs, ∀ row, start ≤ row → Metered enough row (NamedAs c) fun h p => fetch c h p row)
    {nullPtr : Nat} (hrow : start ≤ row) (henough : enough' → nullPtr < packet.length → enough)
    {pre : Ptr → MysqlBind → Prop} (length reported : Nat) :
    Metered enough' row pre fun header p => fetchResultComplexAllocSpace header p length >>= fun r =>
      fetchChildren packet fetch cs r.1 nullPtr 4 r.2 row >>= fun r =>
        .ok (r.1.setHeader header fun h => { h with length := reported }, r.2) := by
  have hloop : Metered enough' row (fun _ _ => True) fun (i : Ptr × Ptr) p =>
      fetchChildren packet fetch cs i.2 nullPtr 4 p row >>= fun r =>
        .ok (r.1.setHeader i.1 fun h => { h with length := reported }, r.2) := by
    have hrun : Metered enough' row (fun _ _ => True) fun (i : Ptr × Ptr) p =>
        fetchChildren packet fetch cs i.2 nullPtr 4 p row :=
      (fetchChildren_metered hcs hfetch 4 hrow henough).comap Prod.snd
    refine hrun.seq (g := fun stop h p => .ok (p.setHeader h fun h => { h with length := reported }, stop))
      Prod.fst fun stop _ => ?_
    exact metered_quiet _ (fun i p _ => Quiet.setHeader p i _) le_rfl
  exact metered_allocSpace length id hloop

theorem getComplexType_named {h : Header} (hname : h.name = some name) :
    getComplexType types h = .ok (types name) := by
  rw [getComplexType, hname]

theorem object_metered (hname : types name = some (.object cs)) (hcs : ∀ c ∈ cs, Handled types c)
    (hfetch : ∀ c ∈ cs, ∀ row', row < row' → Metered enough row' (NamedAs c) fun h p => fetch c h p row')
    (henough : enough' → row < packet.length → enough) :
    Metered enough' row (fun h p => (p.headers h).name = some name)
      fun h p => fetchResultObjectComplex types packet fetch h p row := by
  have hblock : Metered enough' (row + (cs.length + 9) / 8) (fun h p => (p.headers h).name = some name) _ :=
    block_metered hcs (fun c hc row' h => hfetch c hc row' (by omega)) le_rfl henough
      (headersLength cs) (headersLength cs)
  refine (hblock.from_earlier (Nat.le_add_right _ _)).congr fun h p hp => ?_
  rw [fetchResultObjectComplex, getComplexType_named hp, hname]
  rfl

/-- The array fetch with the type of its elements in hand. -/
theorem fetchResultArrayComplex_given (fetch : Fetcher) (b : Ptr) (p : MysqlBind) (c : ChildType) :
    fetchResultArrayComplex types packet fetch b p row (some (.collection c)) = netFieldLength packet row >>= fun r =>
      fetchResultComplexAllocSpace b p (r.1 % 2 ^ 32 * getComplexHeaderLength c.type) >>= fun a =>
        fetchChildren packet fetch (List.replicate (r.1 % 2 ^ 32) c) a.1 r.2 4 a.2
          (r.2 + (r.1 % 2 ^ 32 + 9) % 2 ^ 32 / 8) >>= fun e =>
        .ok (e.1.setHeader b fun h => { h with length := r.1 % 2 ^ 32 }, e.2) := rfl

/-- What the array fetch does with its element type, wherever it has it from. -/
theorem array_metered {given : Option ComplexType} {pre : Ptr → MysqlBind → Prop}
    (hfound : ∀ h p, pre h p → given = some (.collection c) ∨ given = none ∧ getComplexType types (p.headers h) = .ok (some (.collection c)))
    (hc : Handled types c)
    (hfetch : ∀ row', row < row' → Metered enough row' (NamedAs c) fun h p => fetch c h p row')
    (henough : enough' → row < packet.length → enough) :
    Metered enough' row pre fun h p => fetchResultArrayComplex types packet fetch h p row given := by
  have hbody : Metered enough' row pre fun h p =>
      fetchResultArrayComplex types packet fetch h p row (some (.collection c)) := by
    simp only [fetchResultArrayComplex_given]
    refine metered_bind (netFieldLength_ends packet row) fun r _ hr => ?_
    have hcs : ∀ d ∈ List.replicate (r.1 % 2 ^ 32) c, Handled types d := by
      intro d hd
      rw [eq_of_mem_replicate hd]
      exact hc
    have hfetch' : ∀ d ∈ List.replicate (r.1 % 2 ^ 32) c, ∀ row', r.2 ≤ row' →
        Metered enough row' (NamedAs d) fun h p => fetch d h p row' := by
      intro d hd row' hrow'
      rw [eq_of_mem_replicate hd]
      exact hfetch row' (by omega)
    refine (block_metered hcs hfetch' (Nat.le_add_right _ _) ?_ _ _).from_earlier (by omega)
    intro h hin
    exact henough h (by omega)
  refine hbody.congr fun h p hp => ?_
  unfold fetchResultArrayComplex
  rcases hfound h p hp with rfl | ⟨rfl, hget⟩
  · rfl
  rw [hget]
  rfl

theorem xmltype_metered (hname : types name = some (.xmltype c)) (hc : Handled types c)
    (hfetch : Metered enough row (NamedAs c) fun h p => fetch c h p row) :
    Metered enough row (fun h p => (p.headers h).name = some name)
      fun h p => fetchResultXmltypeComplex types fetch h p row := by
  have hrest : Metered enough row (fun _ _ => True) fun (i : Ptr × Ptr) p =>
      fetch c i.2 (fillComplexType p i.2 c) row >>= fun r =>
        .ok (r.1.setHeader i.1 fun h => { h with length := getComplexHeaderLength c.type }, r.2) := by
    refine metered_fill (g := fun i p => fetch c i.2 p row >>= fun r =>
      .ok (r.1.setHeader i.1 fun h => { h with length := getComplexHeaderLength c.type }, r.2)) hc Prod.snd ?_
    refine (hfetch.comap Prod.snd).seq (g := fun stop h p =>
      .ok (p.setHeader h fun h => { h with length := getComplexHeaderLength c.type }, stop)) Prod.fst fun stop _ => ?_
    exact metered_quiet _ (fun i p _ => Quiet.setHeader p i _) le_rfl
  refine (metered_allocSpace (getComplexHeaderLength c.type) id hrest).congr fun h p hp => ?_
  rw [fetchResultXmltypeComplex, getComplexType_named hp, hname]
  rfl

/-- **The recursion is metered**, and fuel beyond the bytes left of the packet is enough for it. -/
theorem fetchResultComplex_metered (fuel : Nat) : ∀ {c : ChildType} (row : Nat), HandledTree types c →
    Metered (packet.length - row < fuel) row (NamedAs c) fun h p => fetchResultComplex types packet fuel c h p row := by
  induction fuel with
  | zero =>
    intro c row _
    exact metered_error (fun h => absurd h (Nat.not_lt_zero _)) fun _ _ _ => rfl
  | succ fuel ih =>
    intro c row htree
    have hc := htree.handled
    -- a child of this one starts behind `row`, so that the fuel left is enough for it
    have hdeeper : ∀ {d : ChildType}, HandledTree types d → ∀ row', row < row' →
        Metered (packet.length - (row + 1) < fuel) row' (NamedAs d)
          fun h p => fetchResultComplex types packet fuel d h p row' := by
      intro d hd row' hrow'
      exact (ih row' hd).mono (fun h => by omega) le_rfl fun _ _ h => h
    have henough : packet.length - row < fuel + 1 → row < packet.length → packet.length - (row + 1) < fuel := by
      omega
    obtain ⟨kind, object⟩ := c
    cases kind with
    | number | varchar2 | char | nvarchar2 | obNumberFloat | obNchar => exact str_metered packet row
    | raw => exact bin_metered packet row
    | date => exact datetime_metered packet row
    | long | longlong | tiny | short | float | double => exact fixed_metered packet _ row
    | obIntervalDs | obIntervalYm => exact interval_metered packet _ row
    | obTimestampNano | obTimestampWithTimeZone | obTimestampWithLocalTimeZone => exact timestamp_metered packet row
    | object =>
      obtain ⟨name, cs, hobject, htype⟩ := hc.object rfl
      have hcs : ∀ d ∈ cs, HandledTree types d := fun d hd => htree.child (.inl rfl) hobject htype hd
      refine (object_metered htype (fun d hd => (hcs d hd).handled) (fun d hd => hdeeper (hcs d hd)) henough).mono
        id le_rfl ?_
      intro h p hnamed
      rw [hnamed (.inl rfl), hobject]
    | collection =>
      obtain ⟨name, d, hobject, htype⟩ := hc.collection rfl
      have hd : HandledTree types d := htree.child (.inr rfl) hobject htype (mem_singleton_self d)
      show Metered _ row _ fun h p =>
        fetchResultArrayComplex types packet (fetchResultComplex types packet fuel) h p row none
      refine array_metered ?_ hd.handled (hdeeper hd) henough
      intro h p hnamed
      refine .inr ⟨rfl, ?_⟩
      rw [getComplexType_named ((hnamed (.inr rfl)).trans hobject), htype]
    | xmltype => exact absurd rfl hc.kind
    | unknow => exact absurd rfl hc.kind

end Nested

/-! ## the column -/

/-- The element type of an anonymous array as the column definition has it. -/
def Field.elem (field : Field) : ChildType where
  type := mysqlTypeToObjectType field.elemType
  object := if field.elemType = .object then field.elemTypeName.map fun name => ⟨field.elemOwnerName, name⟩ else none

/-- The type tree of the column uses only kinds that the fetch handles. -/
structure Field.Described (types : Types) (field : Field) : Prop where
  named : ¬field.Anonymous → ∃ typeName t, field.typeName = some typeName ∧
    types ⟨field.ownerName, typeName⟩ = some t ∧ ∀ c ∈ t.children, HandledTree types c
  anonymous : field.Anonymous → HandledTree types field.elem

section Column

variable {types : Types} {packet : List UInt8} {field : Field} {elem : ChildType} {row : Nat}

/-- The fetch of a child with fuel for the whole packet. -/
abbrev fetchIn (types : Types) (packet : List UInt8) : Fetcher := fetchResultComplex types packet (packet.length + 1)

/-- The header of `ps_fetch_result_type` carries the names of the column. -/
def NamedByField (field : Field) (h : Ptr) (p : MysqlBind) : Prop :=
  (p.headers h).ownerName = field.ownerName ∧ (p.headers h).typeName = field.typeName

theorem fetch_metered {d : ChildType} (hd : HandledTree types d) (row' : Nat) :
    Metered True row' (NamedAs d) fun h p => fetchIn types packet d h p row' :=
  (fetchResultComplex_metered (packet.length + 1) row' hd).mono (fun _ => by omega) (le_refl _) fun _ _ h => h

/-- The type the outermost header is read with: found under the names of the column, or the array made up
for a column without names. -/
structure Outermost (types : Types) (field : Field) (t : ComplexType) : Prop where
  children : ∀ c ∈ t.children, HandledTree types c
  found : (∃ c, t = .collection c) ∨
    ∃ typeName, field.typeName = some typeName ∧ types ⟨field.ownerName, typeName⟩ = some t

theorem fetchIntoHeader_metered (packet : List UInt8) {t : ComplexType} (ht : Outermost types field t) :
    Metered True row (fun _ _ => True) fun b p => fetchIntoHeader types packet
      (fetchIn types packet) t field.ownerName field.typeName b p row := by
  obtain ⟨hcs, hfound⟩ := ht
  have hname : ∀ {typeName : List UInt8} type b (p : MysqlBind), field.typeName = some typeName →
      ((p.setHeader b fun h => { h with ownerName := field.ownerName, typeName := field.typeName, bufferType := type
        }).headers b).name = some ⟨field.ownerName, typeName⟩ := by
    intro typeName type b p h
    simp [MysqlBind.setHeader, Header.name, h]
  cases t with
  | object cs =>
    obtain ⟨c, h⟩ | ⟨typeName, hfield, htype⟩ := hfound
    · cases h
    exact (object_metered htype (fun c hc => (hcs c hc).handled) (fun c hc row' _ => fetch_metered (hcs c hc) row')
      fun _ _ => trivial).after id _ fun b p _ => ⟨Quiet.setHeader _ _ _, hname .object b p hfield⟩
  | collection c =>
    have hc := hcs c (mem_singleton_self c)
    have harray : Metered True row (fun _ _ => True) fun b p => fetchResultArrayComplex types packet
        (fetchIn types packet) b p row (some (.collection c)) :=
      array_metered (fun _ _ _ => .inl rfl) hc.handled (fun row' _ => fetch_metered hc row') fun _ _ => trivial
    exact harray.after id _ fun b p _ => ⟨Quiet.setHeader _ _ _, trivial⟩
  | xmltype c =>
    have hc := hcs c (mem_singleton_self c)
    obtain ⟨c, h⟩ | ⟨typeName, hfield, htype⟩ := hfound
    · cases h
    exact (xmltype_metered htype hc.handled (fetch_metered hc row)).after id _
      fun b p _ => ⟨Quiet.setHeader _ _ _, hname .object b p hfield⟩

theorem typeComplex_metered {t : ComplexType} (ht : Outermost types field t) {given : Option ComplexType}
    (hgiven : given = some t ∨ given = none ∧ ∃ typeName, field.typeName = some typeName ∧
      types ⟨field.ownerName, typeName⟩ = some t) :
    Metered True row (NamedByField field) fun h p =>
      fetchResultTypeComplex types packet (fetchIn types packet) h p row given := by
  refine (metered_allocSpace sizeofComplexBindObject id ((fetchIntoHeader_metered packet ht).comap Prod.snd)).congr
    fun h p hp => ?_
  unfold fetchResultTypeComplex
  obtain rfl | ⟨rfl, typeName, hname, htype⟩ := hgiven
  · dsimp only
    rw [hp.1, hp.2]
    rfl
  have hnames : (p.headers h).name = some ⟨field.ownerName, typeName⟩ := by
    rw [Header.name, hp.1, hp.2, hname]
    rfl
  dsimp only
  rw [getComplexType_named hnames, htype, hp.1, hp.2]
  rfl

/-- The bind as `ps_fetch_result_type` starts with it. -/
def MysqlBind.started (param : MysqlBind) : MysqlBind := { param with length := 0, offset := 0, blocks := 0, regions := [] }

theorem started_sound {param : MysqlBind} (h : param.error = false) : Sound param.started := by
  refine ⟨rfl, ?_, fun _ => ⟨nofun, tiles_nil⟩⟩
  show param.error = true ↔ param.bufferLength < 0
  rw [h]
  exact ⟨nofun, nofun⟩

/-- The bind with the names of the column in the variable `header`. -/
def MysqlBind.headed (param : MysqlBind) (field : Field) : MysqlBind :=
  param.started.setHeader ⟨.stack, 0⟩ fun h => { h with ownerName := field.ownerName, typeName := field.typeName }

theorem headed_named (field : Field) (param : MysqlBind) : NamedByField field ⟨.stack, 0⟩ (param.headed field) := by
  constructor <;> simp [MysqlBind.headed, MysqlBind.setHeader]

theorem Field.Described.elem_known (hfield : field.Described types) (hanon : field.Anonymous) :
    field.elem.type ≠ .unknow := by
  intro h
  exact (hfield.anonymous hanon).handled.kind (by rw [h]; rfl)

/-- **The fetch of a column is metered**: over all buffers it is one fault, or one length and one place
where the row goes on. It does not run out of fuel. -/
theorem fetchColumn_metered (packet : List UInt8) (row : Nat) (hfield : field.Described types) :
    ∃ m : Except Fault (Nat × Nat), m ≠ .error .outOfFuel ∧ ∀ param : MysqlBind, param.error = false →
      Outcome m param.started (fetchColumn types field.elem field param packet row) := by
  have hrun : ∃ given, (∀ param, fetchColumn types field.elem field param packet row =
        fetchResultTypeComplex types packet (fetchIn types packet) ⟨.stack, 0⟩ (param.headed field) row given) ∧
      Metered True row (NamedByField field) fun h p =>
        fetchResultTypeComplex types packet (fetchIn types packet) h p row given := by
    by_cases hanon : field.Anonymous
    · refine ⟨some (.collection field.elem), ?_, typeComplex_metered ⟨?_, .inl ⟨_, rfl⟩⟩ (.inl rfl)⟩
      · intro param
        unfold fetchColumn
        rw [if_pos hanon, if_neg (hfield.elem_known hanon)]
        rfl
      · intro c hc
        rw [mem_singleton.mp hc]
        exact hfield.anonymous hanon
    obtain ⟨typeName, t, hname, ht, hcs⟩ := hfield.named hanon
    refine ⟨none, ?_, typeComplex_metered ⟨hcs, .inr ⟨typeName, hname, ht⟩⟩ (.inr ⟨rfl, typeName, hname, ht⟩)⟩
    intro param
    unfold fetchColumn
    rw [if_neg hanon]
    rfl
  obtain ⟨given, heq, m, hfuel, -, hm⟩ := hrun
  refine ⟨m, hfuel trivial, ?_⟩
  intro param herror
  have hquiet : Quiet param.started (param.headed field) := Quiet.setHeader _ _ _
  have hout := hm ⟨.stack, 0⟩ _ (hquiet.sound (started_sound herror)) (headed_named field param)
  rw [heq param]
  match m, hout with
  | .error e, hout => exact hout
  | .ok (size, stop), ⟨p', hp', hgrown⟩ => exact ⟨p', hp', hquiet.grown hgrown⟩

end Column

/-! ## when the fetch reports the size needed -/

/-- The row holds a value of the column: with the type tree of the column in hand, the fetch reads it
without leaving the row. -/
def Readable (types : Types) (field : Field) (packet : List UInt8) (row : Nat) : Prop :=
  ∃ (param : MysqlBind) (r : MysqlBind × Nat), param.error = false ∧
    fetchColumn types field.elem field param packet row = .ok r

/-- Over all buffers, and starting without the error flag, the fetch reports one length and stops at one
place of the row; the flag says that the buffer is shorter than the length, and without it the pieces
handed out tile the buffer up to the length. -/
def Sized (types : Types) (field : Field) (packet : List UInt8) (row : Nat) : Prop :=
  ∃ length stop, ∀ param : MysqlBind, param.error = false →
    ∃ param', psFetchResultType types field param packet row = .ok (param', stop) ∧ param'.length = length ∧
      (param'.error = true ↔ param.bufferLength < length) ∧
      (param'.error = false → TilesBuffer param'.regions length)

/-- The `k`-th of the null bits that begin at `stop` is set. The first two of them stand for nothing. -/
def NullBit (packet : List UInt8) (stop k : Nat) : Prop :=
  ∃ b, packet[stop + k / 8]? = some b ∧ b.toNat.testBit (k % 8) = true

/-- Every element of the array at `row` is NULL. -/
def AllNull (packet : List UInt8) (row : Nat) : Prop :=
  ∃ count stop, netFieldLength packet row = .ok (count, stop) ∧
    ∀ i < count % 2 ^ 32, NullBit packet stop (i + 2)

section Main

variable {types : Types} {field : Field} {packet : List UInt8} {row : Nat}

/-- A fetch that ends where the fetch with the column's own type tree does, with a bind that differs in the
memory only, reports what that one does. -/
theorem sized_of_like (hfield : field.Described types) (hread : Readable types field packet row)
    (hlike : ∀ param r, fetchColumn types field.elem field param packet row = .ok r →
      ∃ p', psFetchResultType types field param packet row = .ok (p', r.2) ∧ Quiet r.1 p') :
    Sized types field packet row := by
  obtain ⟨m, -, hm⟩ := fetchColumn_metered packet row hfield
  obtain ⟨param0, r, herror0, hr⟩ := hread
  match m, hm with
  | .error e, hm =>
    have hfault : fetchColumn types field.elem field param0 packet row = .error e := hm param0 herror0
    rw [hfault] at hr
    cases hr
  | .ok (size, stop), hm =>
    refine ⟨size, stop, ?_⟩
    intro param herror
    obtain ⟨param1, hrun, hgrown1⟩ := hm param herror
    obtain ⟨param', hrun', hquiet⟩ := hlike param _ hrun
    have hgrown := hgrown1.quiet hquiet
    have hlength : param'.length = size := hgrown.length.trans (zero_add size)
    have hbuffer : param'.bufferLength = param.bufferLength := hgrown.bufferLength
    refine ⟨param', hrun', hlength, ?_, ?_⟩
    · rw [hgrown.sound.flag, hlength, hbuffer]
    · intro hno
      rw [← hlength]
      exact hgrown.sound.tiled hno

theorem allocSpace_ok (header : Ptr) (p : MysqlBind) (hl : length ≤ maxObject) :
    ∃ r, fetchResultComplexAllocSpace header p length = .ok r := by
  rw [fetchResultComplexAllocSpace, if_neg (by omega)]
  exact ⟨_, rfl⟩

/-- The fetch of an anonymous array is that of its elements, into a header that does not depend on them. -/
theorem fetchColumn_anonymous (types : Types) (packet : List UInt8) (row : Nat) (hanon : field.Anonymous)
    (param : MysqlBind) : ∃ (b : Ptr) (p : MysqlBind),
    ∀ elem : ChildType, elem.type ≠ .unknow → fetchColumn types elem field param packet row =
      fetchResultArrayComplex types packet (fetchIn types packet) b p row (some (.collection elem)) := by
  have h48 : sizeofComplexBindObject ≤ maxObject := by decide
  obtain ⟨r, hr⟩ := allocSpace_ok ⟨.stack, 0⟩ (param.headed field) h48
  refine ⟨r.1, r.2.setHeader r.1 fun h => { h with
    ownerName := field.ownerName, typeName := field.typeName, bufferType := .array }, ?_⟩
  intro elem hkind
  obtain ⟨howner, htype⟩ := headed_named field param
  unfold fetchColumn
  rw [if_pos hanon, if_neg hkind]
  unfold fetchResultTypeComplex
  dsimp only
  rw [pure_eq_ok, ok_bind]
  dsimp only
  rw [MysqlBind.headed, MysqlBind.started] at hr
  rw [hr]
  rfl

/-- The null bit that a turn of the loop looks at. -/
theorem nullBit_iff (stop k : Nat) : NullBit packet stop k ↔
    ∃ nulls, loadNat packet (stop + k / 8) 1 = .ok nulls ∧ nulls &&& 2 ^ (k % 8) ≠ 0 := by
  have hload : ∀ nulls, loadNat packet (stop + k / 8) 1 = .ok nulls ↔
      ∃ b, packet[stop + k / 8]? = some b ∧ b.toNat = nulls := fun nulls => loadNat_one_iff packet
  have hbit : ∀ n : Nat, n &&& 2 ^ (k % 8) ≠ 0 ↔ n.testBit (k % 8) = true := by
    intro n
    rw [Nat.and_two_pow]
    cases n.testBit (k % 8) <;> simp
  simp only [NullBit, hload, hbit]
  constructor
  · rintro ⟨b, hb, hset⟩
    exact ⟨_, ⟨b, hb, rfl⟩, hset⟩
  · rintro ⟨_, ⟨b, hb, rfl⟩, hset⟩
    exact ⟨b, hb, hset⟩

/-- The bit and the byte of the next turn. -/
theorem fetchChildren_next (fetch : Fetcher) (cs : List ChildType) (b : Ptr) (stop k : Nat) (p : MysqlBind) (row : Nat) :
    (if 2 ^ (k % 8) * 2 % 256 = 0 then fetchChildren packet fetch cs b (stop + k / 8 + 1) 1 p row
      else fetchChildren packet fetch cs b (stop + k / 8) (2 ^ (k % 8) * 2 % 256) p row) =
      fetchChildren packet fetch cs b (stop + (k + 1) / 8) (2 ^ ((k + 1) % 8)) p row := by
  have hlt : k % 8 < 8 := Nat.mod_lt _ (by decide)
  by_cases hlast : k % 8 = 7
  · have hnext : (k + 1) % 8 = 0 := by omega
    have hbyte : stop + (k + 1) / 8 = stop + k / 8 + 1 := by omega
    rw [hnext, hbyte, hlast, if_pos (by decide)]
    rfl
  · have hnext : (k + 1) % 8 = k % 8 + 1 := by omega
    have hbyte : stop + (k + 1) / 8 = stop + k / 8 := by omega
    have hsmall : 2 ^ (k % 8) * 2 % 256 = 2 ^ (k % 8 + 1) := by
      rw [← pow_succ]
      exact Nat.mod_eq_of_lt (lt_of_lt_of_le (Nat.pow_lt_pow_right (by decide) (show k % 8 + 1 < 8 by omega)) (by decide))
    rw [hnext, hbyte, hsmall, if_neg (by positivity)]

section Elements

variable (fetch : Fetcher) {stop : Nat}

/-- Elements that are NULL leave their headers and nothing else. -/
theorem fetchChildren_null (hkind : filledType c.type ≠ none) {n k : Nat} (hnull : ∀ i < n, NullBit packet stop (i + k))
    (b : Ptr) (p : MysqlBind) (row : Nat) :
    ∃ p', fetchChildren packet fetch (List.replicate n c) b (stop + k / 8) (2 ^ (k % 8)) p row = .ok (p', row) ∧
      Quiet p p' := by
  induction n generalizing k b p with
  | zero => exact ⟨p, rfl, Quiet.refl p⟩
  | succ n ih =>
    obtain ⟨nulls, hload, hset⟩ := (nullBit_iff stop k).mp (zero_add k ▸ hnull 0 n.succ_pos)
    have hrest : ∀ i < n, NullBit packet stop (i + (k + 1)) := by
      intro i hi
      rw [show i + (k + 1) = i + 1 + k by omega]
      exact hnull (i + 1) (by omega)
    obtain ⟨p', hrun, hquiet⟩ := ih hrest (b.add (getComplexHeaderLength c.type))
      ((fillComplexType p b c).setHeader b fun h => { h with isNull := true })
    refine ⟨p', ?_, ((fillComplexType_spec hkind p b).1.trans (Quiet.setHeader _ _ _)).trans hquiet⟩
    rw [List.replicate_succ, fetchChildren, hload]
    simp only [ok_bind, fetchUnlessNull, hset, ne_eq, not_false_eq_true, decide_true, if_true]
    rw [fetchChildren_next]
    exact hrun

/-- Elements without names that are got through are all NULL: the first other one asks for its type. -/
theorem nullBit_of_unnamed (types : Types) (fuel : Nat) {n k : Nat} {b : Ptr} {p : MysqlBind} {row : Nat}
    {r : MysqlBind × Nat}
    (h : fetchChildren packet (fetchResultComplex types packet (fuel + 1)) (List.replicate n ⟨.object, none⟩) b
      (stop + k / 8) (2 ^ (k % 8)) p row = .ok r) : ∀ i < n, NullBit packet stop (i + k) := by
  induction n generalizing k b p row with
  | zero => exact fun i hi => absurd hi (Nat.not_lt_zero i)
  | succ n ih =>
    rw [List.replicate_succ, fetchChildren] at h
    obtain ⟨nulls, hload, h⟩ := bind_eq_ok.mp h
    obtain ⟨⟨p1, row1⟩, hone, h⟩ := bind_eq_ok.mp h
    dsimp only at h
    rw [fetchChildren_next] at h
    have hset : nulls &&& 2 ^ (k % 8) ≠ 0 := by
      intro hclear
      have hnamed := (fillComplexType_spec (show filledType .object ≠ none by decide) p b (c := ⟨.object, none⟩)).2
        (.inl rfl)
      have hfault : fetchResultComplex types packet (fuel + 1) ⟨.object, none⟩ b
          (fillComplexType p b ⟨.object, none⟩) row = .error .readOutside := by
        show fetchResultObjectComplex types packet _ b _ row = _
        rw [fetchResultObjectComplex, getComplexType, hnamed]
        rfl
      simp only [fetchUnlessNull, hclear, ne_eq, not_true_eq_false, decide_false, Bool.false_eq_true, if_false,
        hfault] at hone
      cases hone
    intro i hi
    cases i with
    | zero => exact (zero_add k).symm ▸ (nullBit_iff stop k).mpr ⟨nulls, hload, hset⟩
    | succ i =>
      rw [show i + 1 + k = i + (k + 1) by omega]
      exact ih h i (by omega)

end Elements

/-- Two element types that differ in their names only, over elements that do not ask for them. -/
theorem fetchResultArrayComplex_null (hnull : AllNull packet row) {fetch : Fetcher} {b : Ptr} {d : ChildType}
    (hkind : filledType c.type ≠ none) (hsame : c.type = d.type) {r : MysqlBind × Nat}
    (hr : fetchResultArrayComplex types packet fetch b p row (some (.collection c)) = .ok r) :
    ∃ p', fetchResultArrayComplex types packet fetch b p row (some (.collection d)) = .ok (p', r.2) ∧ Quiet r.1 p' := by
  obtain ⟨count, stop, hcount, hbits⟩ := hnull
  rw [fetchResultArrayComplex_given, hcount, ok_bind] at hr ⊢
  dsimp only at hr ⊢
  rw [← hsame]
  obtain ⟨⟨buffer, p1⟩, halloc, hr⟩ := bind_eq_ok.mp hr
  rw [halloc, ok_bind]
  dsimp only at hr ⊢
  have hstart : ∀ e : ChildType, fetchChildren packet fetch (List.replicate (count % 2 ^ 32) e) buffer stop 4 p1
      (stop + (count % 2 ^ 32 + 9) % 2 ^ 32 / 8) = fetchChildren packet fetch (List.replicate (count % 2 ^ 32) e)
        buffer (stop + 2 / 8) (2 ^ (2 % 8)) p1 (stop + (count % 2 ^ 32 + 9) % 2 ^ 32 / 8) := fun _ => rfl
  obtain ⟨p2, hrun, hquiet⟩ := fetchChildren_null fetch hkind hbits buffer p1
    (stop + (count % 2 ^ 32 + 9) % 2 ^ 32 / 8)
  obtain ⟨p3, hrun', hquiet'⟩ := fetchChildren_null fetch (hsame ▸ hkind) hbits buffer p1
    (stop + (count % 2 ^ 32 + 9) % 2 ^ 32 / 8)
  rw [hstart, hrun, ok_bind] at hr
  rw [hstart, hrun', ok_bind]
  cases hr
  have hdone : Quiet p2 (p2.setHeader b fun h => { h with length := count % 2 ^ 32 }) := Quiet.setHeader _ _ _
  have hdone' : Quiet p3 (p3.setHeader b fun h => { h with length := count % 2 ^ 32 }) := Quiet.setHeader _ _ _
  exact ⟨_, rfl, hdone.symm.trans ((hquiet.symm.trans hquiet').trans hdone')⟩

/-- An array of objects without names that is got through has no element but NULL ones. -/
theorem allNull_of_unnamed {b : Ptr} {r : MysqlBind × Nat}
    (hr : fetchResultArrayComplex types packet (fetchIn types packet) b p row
      (some (.collection ⟨.object, none⟩)) = .ok r) : AllNull packet row := by
  rw [fetchResultArrayComplex_given] at hr
  obtain ⟨⟨count, stop⟩, hcount, hr⟩ := bind_eq_ok.mp hr
  obtain ⟨a, -, hr⟩ := bind_eq_ok.mp hr
  obtain ⟨e, hrun, -⟩ := bind_eq_ok.mp hr
  exact ⟨count, stop, hcount, nullBit_of_unnamed types packet.length (k := 2) hrun⟩

end Main

/-- A set of children closed under the types they name is a handled tree if each of them is. -/
theorem HandledTree.of_closed {types : Types} {S : ChildType → Prop} (hhandled : ∀ c, S c → Handled types c)
    (hclosed : ∀ c name t, S c → c.Nested → c.object = some name → types name = some t → ∀ e ∈ t.children, S e)
    (hc : S c) : HandledTree types c := by
  intro d hd
  induction hd with
  | refl c => exact hhandled c hc
  | step hnested hname ht he _ ih => exact ih (hclosed _ _ _ hc hnested hname ht _ he)

/-- Two types: an object `T` of a number and a list `A`, and the list of strings. -/
def sampleTypes : Types := fun name =>
  if name = ⟨none, [84]⟩ then some (.object [⟨.long, none⟩, ⟨.collection, some ⟨none, [65]⟩⟩])
  else if name = ⟨none, [65]⟩ then some (.collection ⟨.varchar2, none⟩)
  else none

/-- The children that `T` leads to. -/
def sampleChildren : List ChildType := [⟨.object, some ⟨none, [84]⟩⟩, ⟨.long, none⟩, ⟨.collection, some ⟨none, [65]⟩⟩,
  ⟨.varchar2, none⟩]

theorem sampleChildren_handled : ∀ c ∈ sampleChildren, HandledTree sampleTypes c := by
  intro c hc
  refine HandledTree.of_closed (S := (· ∈ sampleChildren)) ?_ ?_ hc
  · intro c hc
    simp only [sampleChildren, mem_cons, not_mem_nil, or_false] at hc
    rcases hc with rfl | rfl | rfl | rfl
    · exact ⟨by decide, fun _ => ⟨_, _, rfl, rfl⟩, nofun⟩
    · exact ⟨by decide, nofun, nofun⟩
    · exact ⟨by decide, nofun, fun _ => ⟨_, _, rfl, rfl⟩⟩
    · exact ⟨by decide, nofun, nofun⟩
  · intro c name t hc _ hname ht e he
    simp only [sampleChildren, mem_cons, not_mem_nil, or_false] at hc
    rcases hc with rfl | rfl | rfl | rfl
    · cases hname
      cases ht
      revert e
      decide
    · cases hname
    · cases hname
      cases ht
      revert e
      decide
    · cases hname

/-- A column of type `T`, and a column of type anonymous array of `T`. -/
def columnOfT : Field := ⟨none, some [84], .decimal, none, none⟩
def columnOfAnonymousArray : Field := ⟨none, none, .object, none, some [84]⟩

/-- The object with the number 7 and the list of a null string and `"x"`. -/
def objectRow : List UInt8 := [0, 7, 0, 0, 0, 2, 4, 1, 120]

/-- The array of that object alone. -/
def arrayRow : List UInt8 := [1, 0] ++ objectRow

/-- A bind with a buffer of `n` bytes. -/
def bindOf (n : Nat) : MysqlBind := ⟨n, 0, false, 0, 0, [], fun _ => zeroHeader, fun _ => none⟩

theorem columnOfT_described : columnOfT.Described sampleTypes := by
  refine ⟨fun _ => ⟨[84], _, rfl, rfl, ?_⟩, ?_⟩
  · intro c hc
    apply sampleChildren_handled
    revert c
    decide
  · intro h
    exact absurd h (by decide)

theorem columnOfAnonymousArray_described : columnOfAnonymousArray.Described sampleTypes := by
  refine ⟨?_, ?_⟩
  · intro h
    exact absurd (by decide) h
  · intro _
    apply sampleChildren_handled
    decide

theorem readable_of_isSome {types : Types} {field : Field} {packet : List UInt8}
    (h : (fetchColumn types field.elem field (bindOf 0) packet 0).toOption.isSome = true) :
    Readable types field packet 0 := by
  cases hr : fetchColumn types field.elem field (bindOf 0) packet 0 with
  | error e =>
    rw [hr] at h
    cases h
  | ok r => exact ⟨bindOf 0, r, rfl, hr⟩

end ObConnector.Stmt.Complex
