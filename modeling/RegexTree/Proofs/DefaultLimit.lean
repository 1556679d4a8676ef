import RegexTree.Proofs.Causes
import RegexTree.Proofs.Convert
import RegexTree.Proofs.FrontEnds

/-!
# Texts and the default limit

A node of a document takes two levels of reading, and a format looks into 128 levels at most, so no text states a tree of more
than 64 levels. The default limit is 128: nothing that is read from a text exceeds it, and no command says so unless it is given
a limit of its own (`text_never_exceeds_default_limit`).
-/

namespace RegexTree

variable {σ : Type}

namespace Pattern

mutual
/-- A tree has as many levels with its missing identifiers filled in as without. -/
theorem depth_assignIds (ids : IdSource σ) : (p : Pattern) → (s : σ) → (p.assignIds ids s).1.depth = p.depth
  | .leaf _ _ _, _ => rfl
  | .group _ _ children, s => congrArg (1 + ·) (depthAll_assignIds ids children s)

/-- Trees of a list have as many levels with their missing identifiers filled in as without. -/
theorem depthAll_assignIds (ids : IdSource σ) : (ps : List Pattern) → (s : σ) → depthAll (assignIdsAll ids ps s).1 = depthAll ps
  | [], _ => rfl
  | p :: ps, s => by simp only [assignIdsAll, depthAll, depth_assignIds ids p, depthAll_assignIds ids ps]
end

/-- Trees of a list have so many levels exactly when each of them has. -/
theorem depthAll_le_iff {bound : Nat} {ps : List Pattern} : depthAll ps ≤ bound ↔ ∀ p ∈ ps, p.depth ≤ bound := by
  constructor
  · intro h
    induction ps with
    | nil => exact List.forall_mem_nil _
    | cons p ps ih =>
      rw [depthAll, Nat.max_le] at h
      exact List.forall_mem_cons.2 ⟨h.1, ih h.2⟩
  · exact depthAll_le

/-! ## What is read -/

/-- A tree that is read from a text of a known format has at most 64 levels. -/
theorem depth_of_decodeAs {ids : IdSource σ} {format : Format} {text : String} {s : σ} {p : Pattern}
    (h : (decodeAs ids format text s).1 = .ok p) : p.depth ≤ 64 := by
  obtain ⟨d, u, hd, hu, ha⟩ := StatedAux.decodeAs_ok h
  rw [← show (u.assignIds ids s).1 = p from congrArg Prod.fst ha, depth_assignIds]
  exact Draft.depth_of_ofText? hd hu

/-- A tree that is read from the text of a list has at most half as many levels as the format looks into. -/
theorem depth_of_decodeListAs {ids : IdSource σ} {format : Format} {text : String} {s : σ} {ps : List Pattern}
    (h : (decodeListAs ids format text s).1 = .ok ps) : ∀ p ∈ ps, p.depth ≤ format.levels / 2 := by
  obtain ⟨ds, us, hd, hu, ha⟩ := StatedAux.decodeListAs_ok h
  rw [← depthAll_le_iff, ← show (assignIdsAll ids us s).1 = ps from congrArg Prod.fst ha, depthAll_assignIds, depthAll_le_iff]
  exact Draft.depth_of_listOfText? hd hu

end Pattern

namespace LimitAux

open Pattern CommandLine

/-! ## What goes wrong -/

/-- The failure is one of depth. -/
def ExceedsDepth (e : Error) : Prop := ∃ limit, e.cause = .depthExceeded limit

/-- No node of a draft offends by its depth. -/
theorem cause_of_offence? {d : Draft} {o : Offence} (h : d.offence? = some o) (limit : Nat) : o.cause ≠ .depthExceeded limit := by
  have hv : ∀ type cause, d.valueCause? type = some cause → cause ≠ .depthExceeded limit := by
    intro type cause hc
    rintro rfl
    unfold Draft.valueCause? at hc
    split at hc
    · cases hc
    · unfold NodeType.unresolved? at hc
      split at hc
      · split at hc <;> cases hc
      · split at hc <;> cases hc
      · cases hc
      · cases hc
  intro hdepth
  unfold Draft.offence? at h
  split at h
  · cases h
    cases hdepth
  · split at h
    · cases h
      cases hdepth
    · split at h <;> cases h
      cases hdepth
    · obtain ⟨cause, hc, rfl⟩ := Option.map_eq_some_iff.1 h
      exact hv _ cause hc hdepth

/-- A walk over drafts does not fail for depth. -/
theorem not_exceedsDepth_of_outcome {α : Type} {ids : IdSource σ} {s : σ} {vs : List Draft.Visit} {r : Except Error α × σ}
    (h : OffenceAux.Outcome ids s vs r) {e : Error} (he : r.1 = .error e) : ¬ExceedsDepth e := by
  cases h with
  | accepted a _ => cases he
  | refused _ _ ho =>
    cases he
    rintro ⟨limit, hc⟩
    exact cause_of_offence? ho limit hc

/-- No text is refused for its depth. -/
theorem not_exceedsDepth_of_decode {ids : IdSource σ} {text : String} {s : σ} {e : Error}
    (h : (decode ids text s).1 = .error e) : ¬ExceedsDepth e := by
  unfold decode decodeAs at h
  split at h
  · cases h
    rintro ⟨_, ⟨⟩⟩
  · split at h
    · cases h
      rintro ⟨_, ⟨⟩⟩
    · exact not_exceedsDepth_of_outcome (OffenceAux.outcome_toPattern ids _ [] s) h

/-- No text of a list is refused for its depth. -/
theorem not_exceedsDepth_of_decodeList {ids : IdSource σ} {text : String} {s : σ} {e : Error}
    (h : (decodeList ids text s).1 = .error e) : ¬ExceedsDepth e := by
  unfold decodeList decodeListAs at h
  split at h
  · cases h
    rintro ⟨_, ⟨⟩⟩
  · split at h
    · cases h
      rintro ⟨_, ⟨⟩⟩
    · refine not_exceedsDepth_of_outcome (OffenceAux.outcome_toPatternsFrom ids [] _ 0 s fun d _ path s => ?_) h
      exact OffenceAux.outcome_toPattern ids d path s

/-- A tree within the limit does not fail for depth. -/
theorem not_exceedsDepth_of_ofTree {limit levels : Nat} {e : Error} (h : e.cause.OfTree limit levels) (hl : levels ≤ limit) :
    ¬ExceedsDepth e := by
  rintro ⟨limit', hc⟩
  rw [hc] at h
  cases h with
  | depthExceeded hd => exact Nat.not_le.2 hd hl

/-- A text does not fail to compile for depth under the default limit. -/
theorem not_exceedsDepth_of_compileText {ids : IdSource σ} {text : String} {s : σ} {e : Error}
    (h : (compileText ids defaultDepthLimit text s).1 = .error e) : ¬ExceedsDepth e := by
  unfold compileText at h
  split at h
  · rename_i p s' hd
    obtain ⟨format, -, hp⟩ := StatedAux.decodeAs_of_decode (show (decode ids text s).1 = .ok p by rw [hd])
    have hl : p.depth ≤ defaultDepthLimit := Nat.le_trans (depth_of_decodeAs hp) (by decide)
    exact not_exceedsDepth_of_ofTree (compile_error (StatedAux.resolved_of_decodeAs hp) h) hl
  · rename_i e' s' hd
    cases h
    exact not_exceedsDepth_of_decode (show (decode ids text s).1 = .error e by rw [hd])

/-- The text of a list does not fail to compile for depth under the default limit. -/
theorem not_exceedsDepth_of_compileListText {ids : IdSource σ} {text : String} {s : σ} {e : Error}
    (h : (compileListText ids defaultDepthLimit text s).1 = .error e) : ¬ExceedsDepth e := by
  unfold compileListText at h
  split at h
  · rename_i ps s' hd
    obtain ⟨format, -, hps⟩ := StatedAux.decodeListAs_of_decodeList (show (decodeList ids text s).1 = .ok ps by rw [hd])
    have hl : depthAll ps ≤ defaultDepthLimit := by
      refine Nat.le_trans (depthAll_le (depth_of_decodeListAs hps)) ?_
      cases format <;> decide
    exact not_exceedsDepth_of_ofTree (compileAll_error (StatedAux.resolved_of_decodeListAs hps) h) hl
  · rename_i e' s' hd
    cases h
    exact not_exceedsDepth_of_decodeList (show (decodeList ids text s).1 = .error e by rw [hd])

/-! ## What is said -/

/-- A text that stands first decides how the whole begins. -/
theorem head?_append {a : String} {c : Char} (h : a.toList.head? = some c) (b : String) : (a ++ b).toList.head? = some c := by
  rw [String.toList_append, List.head?_append, h]
  rfl

/-- A cause of depth is told by the first letter of its wording. -/
theorem head?_message (cause : Cause) :
    ∃ c, cause.message.toList.head? = some c ∧ (c = 'p' → ∃ limit, cause = .depthExceeded limit) := by
  -- The equations of the wording are not used: they are slow to come by, since its texts are long.
  delta Cause.message
  cases cause with
  | depthExceeded limit => exact ⟨'p', head?_append (by simp) _, fun _ => ⟨limit, rfl⟩⟩
  | malformed why => exact ⟨'m', head?_append (by simp) _, nofun⟩
  | invalidType name | invalidAnchor value | invalidCharacterClass value | invalidRange min max =>
    refine ⟨'i', ?_, nofun⟩
    simp only [String.append_assoc]
    exact head?_append (by simp) _
  | missingGroupName => exact ⟨'n', by simp, nofun⟩
  | emptyGroup => exact ⟨'g', by simp, nofun⟩

/-- The wording of a failure begins as that of its cause. -/
theorem head?_error {e : Error} {c : Char} (h : e.cause.message.toList.head? = some c) : e.message.toList.head? = some c := by
  delta Error.message
  cases e.location with
  | none => exact h
  | some l => exact head?_append (head?_append h _) _

end LimitAux

namespace CommandLine

/-- What the program says on failing is that a pattern nests too deep. -/
def Outcome.SaysTooDeep (outcome : Outcome) : Prop :=
  ∃ limit, ("Error: " ++ (Cause.depthExceeded limit).message).toList <+: outcome.stderr.toList

end CommandLine

namespace LimitAux

open Pattern CommandLine

/-- A failure that is not one of depth does not say so. -/
theorem not_saysTooDeep_failure {e : Error} (h : ¬ExceedsDepth e) (stdout : String) :
    ¬(Outcome.failure e.message stdout).SaysTooDeep := by
  rintro ⟨limit, hp⟩
  have hd : (Cause.depthExceeded limit).message.toList.head? = some 'p' := by
    delta Cause.message
    exact head?_append (by simp) _
  obtain ⟨c, hc, hcause⟩ := head?_message e.cause
  rw [Outcome.failure, String.append_assoc, String.toList_append, String.toList_append, List.prefix_append_right_inj] at hp
  obtain ⟨rest, hrest⟩ := hp
  have hh := congrArg List.head? hrest
  rw [List.head?_append, hd, head?_append (head?_error hc)] at hh
  exact h (hcause (Option.some.inj hh).symm)

/-- Who says nothing of a failure does not say so. -/
theorem not_saysTooDeep_of_silent {outcome : Outcome} (h : outcome.stderr = "") : ¬outcome.SaysTooDeep := by
  rintro ⟨limit, hp⟩
  rw [h] at hp
  have he := head?_append (show "Error: ".toList.head? = some 'E' by simp) (Cause.depthExceeded limit).message
  rw [List.prefix_nil.1 hp] at he
  cases he

/-- The outcome of a result does not say so where the result is no failure of depth. -/
theorem not_saysTooDeep_ofResult {result : Except Error String} (h : ∀ e, result = .error e → ¬ExceedsDepth e) :
    ¬(Outcome.ofResult result).SaysTooDeep := by
  cases result with
  | ok text => exact not_saysTooDeep_of_silent rfl
  | error e => exact not_saysTooDeep_failure (h e rfl) ""

/-! ## Commands -/

/-- The regex of an input does not fail for depth under the default limit. -/
theorem not_exceedsDepth_of_regexOf {ids : IdSource σ} {list : Bool} {text : String} {s : σ} {e : Error}
    (h : Command.regexOf ids list defaultDepthLimit text s = .error e) : ¬ExceedsDepth e := by
  unfold Command.regexOf at h
  split at h
  · exact not_exceedsDepth_of_compileListText h
  · exact not_exceedsDepth_of_compileText h

/-- The report on an input does not fail for depth under the default limit. -/
theorem not_exceedsDepth_of_report {ids : IdSource σ} {text : String} {s : σ} {e : Error}
    (h : (Report.ofText ids defaultDepthLimit text s).1 = .error e) : ¬ExceedsDepth e := by
  have hc : (compileText ids defaultDepthLimit text s).1 = .error e := by
    rw [← FrontEndAux.map_output_ofText, h]
    rfl
  exact not_exceedsDepth_of_compileText hc

/-- A text is not refused for depth when it is converted. -/
theorem not_exceedsDepth_of_convert {ids : IdSource σ} {target : Format} {text : String} {s : σ} {e : Error}
    (h : (convert ids target text s).1 = .error e) : ¬ExceedsDepth e := by
  unfold convert at h
  split at h
  · cases h
  · rename_i e' s' hd
    cases h
    exact not_exceedsDepth_of_decode (show (decode ids text s).1 = .error e by rw [hd])

/-- What fails after a change of the result failed before it. -/
theorem error_of_map {α β : Type} {f : α → β} {x : Except Error α} {e : Error} (h : x.map f = .error e) : x = .error e := by
  cases x with
  | error e' =>
    cases h
    rfl
  | ok a => cases h

/-- The limit that a command compiles under, which only one command is given. -/
def limitOf : Command → Nat
  | .compile _ _ _ limit => limit
  | .convert .. | .check .. => defaultDepthLimit

/-- A command under the default limit does not say that a pattern nests too deep. -/
theorem not_saysTooDeep_answer (ids : IdSource σ) {command : Command} (h : limitOf command = defaultDepthLimit) (text : String)
    (s : σ) : ¬(command.answer ids text s).SaysTooDeep := by
  unfold Command.answer
  cases command with
  | compile input list report limit =>
    obtain rfl : limit = defaultDepthLimit := h
    cases report with
    | false => exact not_saysTooDeep_ofResult fun e he => not_exceedsDepth_of_regexOf he
    | true => exact not_saysTooDeep_ofResult fun e he => not_exceedsDepth_of_report (error_of_map he)
  | convert input target => exact not_saysTooDeep_ofResult fun e he => not_exceedsDepth_of_convert (error_of_map he)
  | check input list =>
    simp only
    split
    · exact not_saysTooDeep_of_silent rfl
    · rename_i e he
      exact not_saysTooDeep_failure (not_exceedsDepth_of_regexOf he) _

/-! ## Arguments -/

/-- Two steps of reading arguments that succeed. -/
theorem bind_eq_ok {α β : Type} {x : Except Stop α} {f : α → Except Stop β} {b : β} (h : x >>= f = .ok b) :
    ∃ a, x = .ok a ∧ f a = .ok b := by
  cases x with
  | error stop => cases h
  | ok a => exact ⟨a, rfl, h⟩

/-- An input leaves the limit as it is. -/
theorem limit_addInput {word : String} {g g' : Given} (h : g.addInput word = .ok g') : g'.limit = g.limit := by
  unfold Given.addInput at h
  split at h <;> cases h
  rfl

/-- A switch without a value leaves the limit as it is. -/
theorem limit_setFlag {switch : Switch} {g g' : Given} (h : g.setFlag switch = .ok g') : g'.limit = g.limit := by
  unfold Given.setFlag at h
  split at h
  · split at h <;> cases h
    rfl
  · split at h <;> cases h
    rfl
  all_goals cases h

/-- Only one switch with a value sets the limit. -/
theorem limit_setValue {switch : Switch} {value : String} {g g' : Given} (hs : switch ≠ .maxDepth)
    (h : g.setValue switch value = .ok g') : g'.limit = g.limit := by
  unfold Given.setValue at h
  split at h
  · exact absurd rfl hs
  · split at h <;> cases h
    rfl
  · cases h

/-- A switch that a command knows is the switch that was found. -/
theorem of_known {verb : Verb} {found : Option Switch} {switch : Switch} (h : known verb found = .ok switch) :
    found = some switch := by
  unfold known at h
  split at h
  · split at h <;> cases h
    rfl
  · cases h

/-- The switch of the limit has one long name. -/
theorem ofName?_eq_maxDepth {name : String} (h : Switch.ofName? name = some .maxDepth) : name = "max-depth" := by
  unfold Switch.ofName? at h
  split at h
  · cases h
  · split at h
    · cases h
    · split at h
      · assumption
      · split at h
        · cases h
        · split at h <;> cases h

/-- The switch of the limit has no letter. -/
theorem ofLetter?_ne_maxDepth (letter : Char) : Switch.ofLetter? letter ≠ some .maxDepth := by
  intro h
  unfold Switch.ofLetter? at h
  split at h
  · cases h
  · split at h
    · cases h
    · split at h
      · cases h
      · split at h <;> cases h

/-- A long switch of another name leaves the limit as it is. -/
theorem limit_readLong {verb : Verb} {word : List Char} {g g' : Given} {awaited : Option Switch}
    (hw : word.takeWhile (· != '=') ≠ "max-depth".toList) (h : readLong verb word g = .ok (g', awaited)) :
    g'.limit = g.limit ∧ awaited ≠ some .maxDepth := by
  obtain ⟨switch, hk, h⟩ := bind_eq_ok h
  have hs : switch ≠ .maxDepth := by
    rintro rfl
    refine hw ?_
    rw [← ofName?_eq_maxDepth (of_known hk), String.toList_ofList]
  split at h
  · obtain ⟨g₁, hg, h⟩ := bind_eq_ok h
    cases h
    exact ⟨limit_setValue hs hg, nofun⟩
  · cases h
  · cases h
    exact ⟨rfl, fun heq => hs (Option.some.inj heq)⟩
  · obtain ⟨g₁, hg, h⟩ := bind_eq_ok h
    cases h
    exact ⟨limit_setFlag hg, nofun⟩

/-- Short switches leave the limit as it is. -/
theorem limit_readShort {verb : Verb} {letters : List Char} {g g' : Given} {awaited : Option Switch}
    (h : readShort verb letters g = .ok (g', awaited)) : g'.limit = g.limit ∧ awaited ≠ some .maxDepth := by
  induction letters generalizing g with
  | nil =>
    cases h
    exact ⟨rfl, nofun⟩
  | cons letter rest ih =>
    obtain ⟨switch, hk, h⟩ := bind_eq_ok h
    have hs : switch ≠ .maxDepth := by
      rintro rfl
      exact ofLetter?_ne_maxDepth letter (of_known hk)
    split at h
    · split at h
      · cases h
        exact ⟨rfl, fun heq => hs (Option.some.inj heq)⟩
      · obtain ⟨g₁, hg, h⟩ := bind_eq_ok h
        cases h
        exact ⟨limit_setValue hs hg, nofun⟩
      · obtain ⟨g₁, hg, h⟩ := bind_eq_ok h
        cases h
        exact ⟨limit_setValue hs hg, nofun⟩
    · obtain ⟨g₁, hg, h⟩ := bind_eq_ok h
      obtain ⟨hl, ha⟩ := ih h
      exact ⟨hl.trans (limit_setFlag hg), ha⟩

/-- Inputs leave the limit as it is. -/
theorem limit_addInputs {words : List String} {g g' : Given}
    (h : words.foldlM (fun g word => g.addInput word) g = .ok g') : g'.limit = g.limit := by
  induction words generalizing g with
  | nil =>
    cases h
    rfl
  | cons word words ih =>
    rw [List.foldlM_cons] at h
    obtain ⟨g₁, hg, h⟩ := bind_eq_ok h
    exact (ih h).trans (limit_addInput hg)

end LimitAux

namespace CommandLine

/-- Nothing among the words sets a limit. Two dashes end the switches. -/
def StatesNoLimit (words : List String) : Prop :=
  ∀ word ∈ words.takeWhile (· != "--"), word.toList.takeWhile (· != '=') ≠ "--max-depth".toList

end CommandLine

namespace LimitAux

open CommandLine

/-- What is said of the words is said of those behind the first, if that does not end the switches. -/
theorem statesNoLimit_cons {word : String} {words : List String} (h : StatesNoLimit (word :: words))
    (hw : word.toList ≠ ['-', '-']) :
    word.toList.takeWhile (· != '=') ≠ "--max-depth".toList ∧ StatesNoLimit words := by
  have hne : (word != "--") = true := by
    rw [bne_iff_ne]
    rintro rfl
    exact hw (by simp)
  unfold StatesNoLimit at h
  simp only [List.takeWhile_cons, hne, if_true, List.forall_mem_cons] at h
  exact h

/-- Words that state no limit leave it as it is. -/
theorem limit_readArguments {verb : Verb} {words : List String} {awaited : Option Switch} {g g' : Given}
    (hw : StatesNoLimit words) (ha : awaited ≠ some .maxDepth) (h : readArguments verb awaited words g = .ok g') :
    g'.limit = g.limit := by
  induction words generalizing awaited g with
  | nil =>
    cases awaited with
    | none =>
      cases h
      rfl
    | some switch => cases h
  | cons word words ih =>
    cases awaited with
    -- The switch that waits for the word is none of the limit, so the word sets another value.
    | some switch =>
      unfold readArguments at h
      split at h
      · cases h
      · rename_i hd
        obtain ⟨g₁, hg, h⟩ := bind_eq_ok h
        have hs : switch ≠ .maxDepth := fun heq => ha (congrArg some heq)
        have hwords := (statesNoLimit_cons hw fun heq => hd _ heq).2
        exact (ih hwords (show (none : Option Switch) ≠ some .maxDepth from nofun) h).trans (limit_setValue hs hg)
    | none =>
      unfold readArguments at h
      split at h
      · exact limit_addInputs h
      · rename_i name hd heq
        have hdashes : word.toList ≠ ['-', '-'] := by
          rw [heq]
          exact fun hn => hd (List.cons.inj (List.cons.inj hn).2).2
        obtain ⟨hword, hwords⟩ := statesNoLimit_cons hw hdashes
        rw [heq] at hword
        obtain ⟨⟨g₁, awaited⟩, hr, h⟩ := bind_eq_ok h
        obtain ⟨hl, ha⟩ := limit_readLong (fun hn => hword (congrArg (fun cs => '-' :: '-' :: cs) hn)) hr
        exact (ih hwords ha h).trans hl
      · rename_i letter letters hd _ heq
        have hdashes : word.toList ≠ ['-', '-'] := by
          rw [heq]
          exact fun hn => hd (List.cons.inj (List.cons.inj hn).2).1 (List.cons.inj (List.cons.inj hn).2).2
        obtain ⟨⟨g₁, awaited⟩, hr, h⟩ := bind_eq_ok h
        obtain ⟨hl, ha⟩ := limit_readShort hr
        exact (ih (statesNoLimit_cons hw hdashes).2 ha h).trans hl
      · rename_i hdashes _ _
        obtain ⟨g₁, hg, h⟩ := bind_eq_ok h
        exact (ih (statesNoLimit_cons hw hdashes).2 ha h).trans (limit_addInput hg)

/-- Arguments that state no limit ask for a command under the default limit. -/
theorem limitOf_of_ofArguments? {words : List String} {command : Command} (hw : StatesNoLimit words)
    (h : Request.ofArguments? words = some (.run command)) : limitOf command = defaultDepthLimit := by
  unfold Request.ofArguments? at h
  split at h
  · cases h
  · rename_i word words
    split at h
    · rename_i verb hv
      have hdashes : word.toList ≠ ['-', '-'] := by
        intro hd
        rw [← String.ofList_toList (s := word), hd, show Verb.ofWord? (String.ofList ['-', '-']) = none by decide] at hv
        cases hv
      split at h
      · rename_i g hg
        have hl := limit_readArguments (statesNoLimit_cons hw hdashes).2
          (show (none : Option Switch) ≠ some .maxDepth from nofun) hg
        obtain ⟨command', hc, hr⟩ := Option.map_eq_some_iff.1 h
        cases hr
        unfold Given.command? at hc
        obtain ⟨input, -, hc⟩ := Option.bind_eq_some_iff.1 hc
        split at hc
        · split at hc
          · cases hc
          · cases hc
            exact congrArg (fun limit : Option Nat => limit.getD defaultDepthLimit) hl
        · obtain ⟨target, -, hc⟩ := Option.bind_eq_some_iff.1 hc
          cases hc
          rfl
        · cases hc
          rfl
      · cases h
      · cases h
    · split at h
      · cases h
      · split at h
        · cases h
        · split at h <;> cases h

end LimitAux

open Pattern CommandLine LimitAux

/-- A text states no tree of more than 64 levels in either format, and as a list none of more than 63 in JSON or 64 in YAML. So
under the default limit no text fails to compile for depth, as one tree or as a list, and no report does. A command that is given
no limit never says that a pattern nests too deep. -/
theorem text_never_exceeds_default_limit (ids : IdSource σ) (text : String) (s : σ) :
    (∀ format p, (decodeAs ids format text s).1 = .ok p → p.depth ≤ 64) ∧
      (∀ format ps, (decodeListAs ids format text s).1 = .ok ps →
        ∀ p ∈ ps, p.depth ≤ match format with | .json => 63 | .yaml => 64) ∧
      (∀ ps, (decodeList ids text s).1 = .ok ps →
        ∃ format, Format.detectList text = some format ∧ ∀ p ∈ ps, p.depth ≤ match format with | .json => 63 | .yaml => 64) ∧
      (∀ e limit,
        ((compileText ids defaultDepthLimit text s).1 = .error e → e.cause ≠ .depthExceeded limit) ∧
        ((compileListText ids defaultDepthLimit text s).1 = .error e → e.cause ≠ .depthExceeded limit) ∧
        ((Report.ofText ids defaultDepthLimit text s).1 = .error e → e.cause ≠ .depthExceeded limit)) ∧
      ∀ words command, Request.ofArguments? words = some (.run command) → StatesNoLimit words →
        ¬(command.answer ids text s).SaysTooDeep := by
  have hlist : ∀ format ps, (decodeListAs ids format text s).1 = .ok ps →
      ∀ p ∈ ps, p.depth ≤ match format with | .json => 63 | .yaml => 64 := by
    intro format ps hps
    cases format with
    | json => exact depth_of_decodeListAs hps
    | yaml => exact depth_of_decodeListAs hps
  refine ⟨?_, hlist, ?_, ?_, ?_⟩
  · intro format p hp
    exact depth_of_decodeAs hp
  · intro ps hps
    obtain ⟨format, hd, hps⟩ := StatedAux.decodeListAs_of_decodeList hps
    exact ⟨format, hd, hlist format ps hps⟩
  · intro e limit
    refine ⟨?_, ?_, ?_⟩
    · intro he hc
      exact not_exceedsDepth_of_compileText he ⟨limit, hc⟩
    · intro he hc
      exact not_exceedsDepth_of_compileListText he ⟨limit, hc⟩
    · intro he hc
      exact not_exceedsDepth_of_report he ⟨limit, hc⟩
  · intro words command hc hw
    exact not_saysTooDeep_answer ids (limitOf_of_ofArguments? hw hc) text s

/-- A literal inside so many groups. -/
def nestedGroups : Nat → Pattern
  | 0 => .leaf { id := some "a" } .literal (.literal "(")
  | n + 1 => .group { id := some "g" } {} [nestedGroups n]

/-- Every group takes a level, and two of a document. -/
theorem levels_nestedGroups (n depth : Nat) :
    (nestedGroups n).depth = n + 1 ∧ (nestedGroups n).containersAt (depth + 1) = 2 * (depth + 1 + n) := by
  induction n generalizing depth with
  | zero => exact ⟨rfl, rfl⟩
  | succ n ih =>
    obtain ⟨hd, hc⟩ := ih (depth + 1)
    simp only [nestedGroups, Pattern.depth, depthAll, containersAt, containersAtAll, hd, hc]
    omega

/-- A literal inside groups is a tree that the constructors build, with all its identifiers. -/
theorem built_nestedGroups (n : Nat) : (nestedGroups n).Resolved ∧ (nestedGroups n).Identified := by
  induction n with
  | zero => exact ⟨rfl, rfl⟩
  | succ n ih => exact ⟨⟨ih.1, trivial⟩, rfl, ih.2, trivial⟩

/-- YAML reads a tree of 63 groups. -/
theorem decodeAs_nestedGroups {n : Nat} (h : n ≤ 63) :
    (decodeAs .counting .yaml ((nestedGroups n).encode .yaml .indented) {}).1 = .ok (nestedGroups n) := by
  obtain ⟨hr, hid⟩ := built_nestedGroups n
  have hfit : (nestedGroups n).containers ≤ Format.yaml.levels := by
    rw [containers, (levels_nestedGroups n 0).2]
    exact Nat.mul_le_mul_left 2 (Nat.add_le_add_left h 1)
  rw [decodeAs, Draft.ofText?_encode, if_pos hfit]
  simp only
  rw [Draft.toPattern_toDraft .counting [] {} _ hr, assignIds_of_identified .counting {} _ hid]

/-- JSON reads a list with a tree of 62 groups. -/
theorem decodeListAs_nestedGroups {n : Nat} (h : n ≤ 62) :
    (decodeListAs .counting .json (encodeList .json [nestedGroups n]) {}).1 = .ok [nestedGroups n] := by
  obtain ⟨hr, hid⟩ := built_nestedGroups n
  have hfit : containersAtAll 1 [nestedGroups n] < Json.levels := by
    rw [containersAtAll, containersAtAll, (levels_nestedGroups n 0).2, Json.levels]
    omega
  rw [decodeListAs, Json.listOfText?_encodeList, if_pos hfit]
  simp only
  rw [Draft.toPatternsFrom_toDrafts .counting [] 0 {} [nestedGroups n] ⟨hr, trivial⟩,
    assignIdsAll_of_identified .counting {} [nestedGroups n] ⟨hid, trivial⟩]

/-- The bounds are reached: YAML states a tree of 64 levels and JSON a list with a tree of 63. A command whose input is named as
a limit is has none, and does not find the first of them too deep. -/
theorem text_never_exceeds_default_limit_reached :
    let tree := (nestedGroups 63).encode .yaml .indented
    let list := encodeList .json [nestedGroups 62]
    (decodeAs .counting .yaml tree {}).1 = .ok (nestedGroups 63) ∧ (nestedGroups 63).depth = 64 ∧ (nestedGroups 63).depth ≤ 64 ∧
      (decodeListAs .counting .json list {}).1 = .ok [nestedGroups 62] ∧ (nestedGroups 62).depth = 63 ∧
      (nestedGroups 62).depth ≤ 63 ∧
      Request.ofArguments? ["compile", "-d", "--", "--max-depth=1"] =
        some (.run (.compile "--max-depth=1" false true defaultDepthLimit)) ∧
      ¬((Command.compile "--max-depth=1" false true defaultDepthLimit).answer .counting tree {}).SaysTooDeep := by
  intro tree list
  have ht := decodeAs_nestedGroups (Nat.le_refl 63)
  have hl := decodeListAs_nestedGroups (Nat.le_refl 62)
  have hc : Request.ofArguments? ["compile", "-d", "--", "--max-depth=1"] =
      some (.run (.compile "--max-depth=1" false true defaultDepthLimit)) := by decide
  have hw : StatesNoLimit ["compile", "-d", "--", "--max-depth=1"] := by
    unfold StatesNoLimit
    decide
  exact ⟨ht, (levels_nestedGroups 63 0).1, (text_never_exceeds_default_limit .counting tree {}).1 .yaml _ ht, hl,
    (levels_nestedGroups 62 0).1,
    (text_never_exceeds_default_limit .counting list {}).2.1 .json _ hl _ List.mem_cons_self, hc,
    (text_never_exceeds_default_limit .counting tree {}).2.2.2.2 _ _ hc hw⟩

end RegexTree
