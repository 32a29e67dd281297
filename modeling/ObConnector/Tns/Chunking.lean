/-
# ObConnector.Tns.Chunking -- the outcome of a lookup and the cuts of the buffer.

A lookup reads its text through a buffer that is refilled in place: the tnsnames file, or the name itself
when that is a description. `lookup` runs the building functions over the pieces that the refills give.

The outcome does not depend on where the text was cut, as long as no key or value that is read fills
`tns_key` (`lookup_chunkIndependent`): the tokenizer then answers as it would on the whole text
(`serve_agrees`), and nothing but its answers reaches the building functions. The lookup always comes to
its end, because every pair and every entry takes a sign from the text (`ends_tnsBuild`).

A value of 256 bytes is read when more of the text is in the buffer behind it, and refused when the buffer
ends there.
-/
import ObConnector.Tns.Build

namespace ObConnector.Tns

open Lib
open Lib.Dialogue

/-! ## Lookups -/

/-- `ObClientTnsBuild`, on a text that is open. -/
def tnsBuild (fuel : Nat) (dbname : List UInt8) : Parsing Outcome :=
  if isDescriptionTns dbname then tnsBuildDes fuel ⟨none, 0⟩ else tnsBuildFile fuel ⟨none, 0⟩ dbname

/-- The text that a lookup reads. -/
def textRead (dbname file : List UInt8) : List UInt8 := if isDescriptionTns dbname then dbname else file

/-- What a lookup gives when the text arrives in these pieces. The fuel is for the loops: there are more
rounds than bytes. -/
def lookup (dbname : List UInt8) (pieces : List (List UInt8)) : Option Outcome :=
  ((tnsBuild (pieces.flatten.length + 2) dbname).run (serve pieceFeed) (.init ⟨[], pieces⟩)).map Prod.fst

/-- However the text is cut, the lookup ends, and with one and the same outcome. -/
def ChunkIndependent (dbname file : List UInt8) : Prop :=
  ∃ outcome, ∀ pieces : List (List UInt8), (∀ p ∈ pieces, p ≠ []) → pieces.flatten = textRead dbname file →
    lookup dbname pieces = some outcome

/-- No key or value that the lookup reads has 256 bytes or more. -/
def NoLongKey (dbname file : List UInt8) : Prop :=
  (tnsBuild ((textRead dbname file).length + 2) dbname).Avoids (serve textFeed) LongKey
    (.init (textRead dbname file))

instance (dbname file : List UInt8) : Decidable (NoLongKey dbname file) :=
  inferInstanceAs (Decidable (Avoids _ _ _ _))

/-! ## Every lookup ends -/

/-- The program comes to its end on every text of at most that length. -/
abbrev EndsBelow {F : Type} (fd : Feed F) [Sized fd] {α : Type} (limit : Nat) (p : Parsing α) : Prop :=
  Ends (serve fd) (remaining fd) limit p

section Endings

variable {F : Type} {fd : Feed F} [Sized fd] {β : Type} {limit : Nat}

theorem ends_seq {α γ : Type} {p : Parsing α} {f : α → Parsing γ} (hp : EndsBelow fd limit p)
    (hf : ∀ a, EndsBelow fd limit (f a)) : EndsBelow fd limit (p >>= f) := ends_bind (serve_remaining_le fd) hp hf

theorem ends_tnsCall (c : TnsCall) (p : Params) : EndsBelow fd limit (tnsCall c p) := by
  unfold tnsCall
  split
  · exact fun s _ => ⟨_, rfl⟩
  · exact ends_done _

theorem ends_parseWord (words : List (String × (β → β))) (p : Params) (b : β) :
    EndsBelow fd limit (parseWord words p b) := by
  refine ends_seq (ends_tnsCall _ _) fun p => ?_
  split <;> exact ends_pure _

theorem ends_parseInteger (store : Nat → β → β) (p : Params) (b : β) :
    EndsBelow fd limit (parseInteger store p b) :=
  ends_seq (ends_tnsCall _ _) fun _ => ends_pure _

theorem ends_parseString (size : Nat) (store : (Text → Text) → β → β) (p : Params) (b : β) :
    EndsBelow fd limit (parseString size store p b) := by
  refine ends_seq (ends_tnsCall _ _) fun p => ?_
  split <;> exact ends_pure _

variable {handle : Params → β → Parsing (Params × β)}

theorem ends_valueOf (hhandle : ∀ p b, EndsBelow fd limit (handle p b)) (p : Params) (b : β) :
    EndsBelow fd limit (valueOf handle p b) := by
  unfold valueOf
  split
  · exact hhandle p b
  · exact ends_pure _

/-- A program that starts with a sign: the sign was taken, or the rest went on from a failure. -/
theorem sign_taken_or_failed {γ : Type} {sign : TokenType} (hsign : sign ≠ .key) {p : Params}
    {rest : Params → Parsing γ} {q : ParseParams F} {r : γ × ParseParams F}
    (hrun : (tnsParse sign p >>= rest).run (serve fd) q = some r) :
    remaining fd r.2 < remaining fd q ∨ ∃ p' q', p'.ret ≠ 0 ∧ (rest p').run (serve fd) q' = some r := by
  rw [tnsParse, tnsCall] at hrun
  split at hrun
  · by_cases hret : (serve fd q (.parse sign)).1.ret = 0
    · have hlt := serve_sign_remaining_lt fd q hsign hret
      have hle : remaining fd r.2 ≤ remaining fd (serve fd q (.parse sign)).2 :=
        run_measure (serve_remaining_le fd) hrun
      exact .inl (lt_of_le_of_lt hle hlt)
    · exact .inr ⟨_, _, hret, hrun⟩
  · rename_i hret
    exact .inr ⟨p, q, hret, hrun⟩

theorem ends_buildPairs (hhandle : ∀ p b, EndsBelow fd limit (handle p b)) (p : Params) (b : β) :
    EndsBelow fd limit (buildPairs (limit + 2) handle p b) := by
  refine ends_loop (serve_remaining_le fd) ?_ ?_ _
  · intro s
    refine ends_seq (ends_tnsCall _ _) fun p => ?_
    refine ends_seq (ends_tnsCall _ _) fun p => ?_
    refine ends_seq (ends_tnsCall _ _) fun p => ?_
    refine ends_seq ?_ fun r => ?_
    · exact ends_valueOf hhandle _ _
    · exact ends_seq (ends_tnsCall _ _) fun p => ends_pure _
  · intro s q r hrun hr
    rcases sign_taken_or_failed (by decide) hrun with hlt | ⟨p', q', hret, hrest⟩
    · exact hlt
    have hr : r.1.1.ret = 0 := of_decide_eq_true hr
    have hrest : some ((p', s.2), q') = some r := by
      simpa [hret] using hrest
    cases hrest
    exact absurd hr hret

theorem ends_map {γ : Type} (f : β → γ) {p : Parsing β} (hp : EndsBelow fd limit p) : EndsBelow fd limit (f <$> p) :=
  ends_seq hp fun _ => ends_pure _

section

variable (p : Params)
include p

theorem ends_removeStrategyBuild (black : BlacklistConf) :
    EndsBelow fd limit (removeStrategyBuild (limit + 2) p black) := by
  refine ends_map _ (ends_buildPairs (fun p black => ?_) p black)
  unfold removeStrategyKey
  split
  · exact ends_parseWord _ _ _
  · exact ends_parseInteger _ _ _
  · exact ends_pure _

theorem ends_appendStrategyBuild (black : BlacklistConf) :
    EndsBelow fd limit (appendStrategyBuild (limit + 2) p black) := by
  refine ends_map _ (ends_buildPairs (fun p black => ?_) p black)
  unfold appendStrategyKey
  split
  · exact ends_parseWord _ _ _
  · exact ends_parseInteger _ _ _
  · exact ends_parseInteger _ _ _
  · exact ends_pure _

theorem ends_blacklistConfBuild (conf : BlacklistConf) :
    EndsBelow fd limit (blacklistConfBuild (limit + 2) p conf) := by
  refine ends_map _ (ends_buildPairs (fun p conf => ?_) p conf)
  unfold blacklistConfKey
  split
  · exact ends_removeStrategyBuild p conf
  · exact ends_appendStrategyBuild p conf
  · exact ends_pure _

theorem ends_addressBuild (list : AddressList) : EndsBelow fd limit (addressBuild (limit + 2) p list) := by
  refine ends_map _ (ends_buildPairs (fun p a => ?_) p _)
  unfold addressKey
  split
  · exact ends_seq (ends_parseString _ _ _ _) fun _ => ends_pure _
  · exact ends_parseString _ _ _ _
  · exact ends_parseInteger _ _ _
  · exact ends_parseInteger _ _ _
  · exact ends_pure _

theorem ends_addressListBuild (des : Description) : EndsBelow fd limit (addressListBuild (limit + 2) p des) := by
  refine ends_map _ (ends_buildPairs (fun p list => ?_) p _)
  unfold addressListKey
  split
  · exact ends_addressBuild p list
  · exact ends_parseWord _ _ _
  · exact ends_parseWord _ _ _
  · exact ends_pure _

theorem ends_connectDataBuild (des : Description) : EndsBelow fd limit (connectDataBuild (limit + 2) p des) := by
  refine ends_seq (ends_buildPairs (fun p data => ?_) p _) fun _ => ends_pure _
  unfold connectDataKey
  split
  · exact ends_parseString _ _ _ _
  · exact ends_parseString _ _ _ _
  · exact ends_parseString _ _ _ _
  · exact ends_parseInteger _ _ _
  · exact ends_parseInteger _ _ _
  · exact ends_parseString _ _ _ _
  · exact ends_parseInteger _ _ _
  · exact ends_pure _

theorem ends_descriptionKey (des : Description) : EndsBelow fd limit (descriptionKey (limit + 2) p des) := by
  unfold descriptionKey
  split
  · exact ends_parseWord _ _ _
  · exact ends_parseInteger _ _ _
  · exact ends_parseInteger _ _ _
  · exact ends_parseInteger _ _ _
  · exact ends_parseInteger _ _ _
  · exact ends_parseInteger _ _ _
  · exact ends_parseWord _ _ _
  · exact ends_parseWord _ _ _
  · exact ends_seq (ends_blacklistConfBuild p _) fun _ => ends_pure _
  · exact ends_addressListBuild p des
  · exact ends_connectDataBuild p des
  · exact ends_seq (ends_addressBuild p _) fun _ => ends_pure _
  · exact ends_pure _

theorem ends_descriptionBuild (service : Service) : EndsBelow fd limit (descriptionBuild (limit + 2) p service) :=
  ends_map _ (ends_buildPairs ends_descriptionKey p _)

end

theorem ends_serviceKey (isSysVars : Bool) (p : Params) (service : Service) :
    EndsBelow fd limit (serviceKey (limit + 2) isSysVars p service) := by
  unfold serviceKey
  split
  · unfold systemVariablesBuild
    split
    · exact ends_parseString _ _ _ _
    · exact ends_seq (ends_tnsCall _ _) fun _ => ends_pure _
  split
  · exact ends_descriptionBuild p service
  · exact ends_pure _

theorem ends_servicePair (isSysVars : Bool) (s : Params × Service × Bool) :
    EndsBelow fd limit (servicePair (limit + 2) isSysVars s) := by
  refine ends_seq (ends_tnsCall _ _) fun p => ?_
  split
  · exact ends_pure _
  refine ends_seq (ends_tnsCall _ _) fun p => ?_
  refine ends_seq (ends_tnsCall _ _) fun p => ?_
  refine ends_seq (ends_valueOf (ends_serviceKey isSysVars) _ _) fun r => ?_
  exact ends_seq (ends_tnsCall _ _) fun p => ends_pure _

theorem ends_tnsServiceBuild (p : Params) (tns : ObClientTns) :
    EndsBelow fd limit (tnsServiceBuild (limit + 2) p tns) := by
  refine ends_seq ?_ fun r => ?_
  · refine ends_loop (serve_remaining_le fd) (ends_servicePair _) ?_ _
    intro s q r hrun hr
    rcases sign_taken_or_failed (by decide) hrun with hlt | ⟨p', q', hret, hrest⟩
    · exact hlt
    have hr : r.1.1.ret = 0 := of_decide_eq_true hr
    have hrest : some ((p', s.2), q') = some r := by
      simpa [hret] using hrest
    cases hrest
    exact absurd hr hret
  · dsimp only
    split <;> exact ends_pure _

theorem ends_tnsServiceSkip (p : Params) : EndsBelow fd limit (tnsServiceSkip p) := by
  unfold tnsServiceSkip
  split
  · exact ends_pure _
  · exact ends_seq (ends_tnsCall _ _) fun p => ends_tnsCall _ _

theorem ends_tnsEntry (dbname : List UInt8) (s : Params × Bool × ObClientTns) :
    EndsBelow fd limit (tnsEntry (limit + 2) dbname s) := by
  refine ends_seq (ends_tnsCall _ _) fun p => ?_
  refine ends_seq (ends_tnsCall _ _) fun p => ?_
  split
  · exact ends_pure _
  split
  · exact ends_seq (ends_tnsServiceSkip _) fun p => ends_pure _
  · exact ends_seq (ends_tnsServiceBuild _ _) fun r => ends_pure _

theorem ends_tnsBuildFile (tns : ObClientTns) (dbname : List UInt8) :
    EndsBelow fd limit (tnsBuildFile (limit + 2) tns dbname) := by
  refine ends_seq ?_ fun r => ends_pure _
  refine ends_loop (serve_remaining_le fd) (ends_tnsEntry dbname) ?_ _
  intro s q r hrun hr
  have hr : r.1.1.ret = 0 := (of_decide_eq_true hr).1
  -- the name may or may not be there; the sign behind it makes the difference
  rw [tnsEntry, run_bind] at hrun
  have hends : EndsBelow fd (remaining fd q) (tnsCall (.parse .key) s.1) := ends_tnsCall _ _
  obtain ⟨⟨p, q₁⟩, hkey⟩ := hends q le_rfl
  have hle := run_measure (serve_remaining_le fd) hkey
  rw [tnsParse, hkey] at hrun
  rcases sign_taken_or_failed (by decide) hrun with hlt | ⟨p', q', hret, hrest⟩
  · exact lt_of_lt_of_le hlt hle
  have hrest : some ((p', s.2), q') = some r := by
    simpa [hret] using hrest
  cases hrest
  exact absurd hr hret

theorem ends_tnsBuildDes (tns : ObClientTns) : EndsBelow fd limit (tnsBuildDes (limit + 2) tns) := by
  refine ends_seq (ends_tnsCall _ _) fun p => ?_
  refine ends_seq (ends_tnsCall _ _) fun p => ?_
  refine ends_seq (ends_tnsCall _ _) fun p => ?_
  split
  · exact ends_pure _
  split
  · exact ends_pure _
  refine ends_seq (ends_descriptionBuild _ _) fun r => ?_
  refine ends_seq (ends_tnsCall _ _) fun p => ?_
  refine ends_seq (ends_tnsCall _ _) fun st => ?_
  dsimp only
  split <;> split <;> exact ends_pure _

/-- **Every lookup ends.** -/
theorem ends_tnsBuild (dbname : List UInt8) : EndsBelow fd limit (tnsBuild (limit + 2) dbname) := by
  unfold tnsBuild
  split
  · exact ends_tnsBuildDes _
  · exact ends_tnsBuildFile _ _

end Endings

/-! ## The cuts do not matter -/

/-- **One outcome for all the ways to cut the text**, when no key that is read fills `tns_key`. -/
theorem lookup_chunkIndependent {dbname file : List UInt8} (h : NoLongKey dbname file) :
    ChunkIndependent dbname file := by
  have hends : EndsBelow textFeed (textRead dbname file).length (tnsBuild _ dbname) := ends_tnsBuild dbname
  obtain ⟨r, hr⟩ := hends (.init (textRead dbname file)) le_rfl
  refine ⟨r.1, fun pieces hpieces htext => ?_⟩
  have hagree : Agree (.init ⟨[], pieces⟩) (.init (textRead dbname file)) :=
    ⟨⟨htext, hpieces⟩, rfl, rfl, rfl, rfl, rfl⟩
  have hstep : ∀ p q c, Agree p q → ¬LongKey q c → (serve pieceFeed p c).1 = (serve textFeed q c).1 ∧
      Agree (serve pieceFeed p c).2 (serve textFeed q c).2 := fun _ _ _ hR hgood => serve_agrees hR hgood
  have hrun := run_simulates hstep hagree h
  rw [lookup, htext, hrun]
  exact congrArg (Option.map Prod.fst) hr

/-- One address, with a protocol, and the service behind it. -/
def plainFile : List UInt8 :=
  ascii "# ob\nS=(DESCRIPTION=(ADDRESS=(PROTOCOL=TCP)(HOST=h1)(PORT=2883))(CONNECT_DATA=(SID=x)))\n"

theorem plainFile_chunkIndependent : NoLongKey (ascii "S") plainFile ∧ ChunkIndependent (ascii "S") plainFile :=
  have h : NoLongKey (ascii "S") plainFile := by decide +kernel
  ⟨h, lookup_chunkIndependent h⟩

/-- A host of 256 bytes behind a comment, so that the host ends with the first 1024 bytes of the file. -/
def longHostFile : List UInt8 :=
  35 :: List.replicate 736 45 ++ ascii "\nS=(DESCRIPTION=(ADDRESS=(HOST=" ++ List.replicate 256 104 ++
    ascii ")(PORT=2883)))"

/-- With full buffers the service is not found; with other cuts it is. -/
theorem long_host_at_buffer_end : ¬ChunkIndependent (ascii "S") longHostFile := by
  have hfull : (lookup (ascii "S") [longHostFile.take 1024, longHostFile.drop 1024]).map Outcome.find =
      some false := by decide +kernel
  have hhalf : (lookup (ascii "S") [longHostFile.take 512, longHostFile.drop 512]).map Outcome.find =
      some true := by decide +kernel
  have hne : ∀ n ≤ 1024, 0 < n → ∀ p ∈ [longHostFile.take n, longHostFile.drop n], p ≠ [] := by
    intro n hn hpos p hp
    have hlen : longHostFile.length = 1038 := by decide +kernel
    apply List.ne_nil_of_length_pos
    simp only [List.mem_cons, List.not_mem_nil, or_false] at hp
    rcases hp with rfl | rfl
    · rw [List.length_take]
      omega
    rw [List.length_drop]
    omega
  have htext : textRead (ascii "S") longHostFile = longHostFile := if_neg (by decide +kernel)
  rintro ⟨outcome, h⟩
  rw [h _ (hne 1024 (by decide) (by decide)) (by rw [htext]; simp)] at hfull
  rw [h _ (hne 512 (by decide) (by decide)) (by rw [htext]; simp)] at hhalf
  have hbool : false = true := Option.some.inj (hfull.symm.trans hhalf)
  exact absurd hbool (by decide)

end ObConnector.Tns
