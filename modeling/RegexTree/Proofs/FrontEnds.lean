import RegexTree.CommandLine.Outcome
import RegexTree.Proofs.Report
import RegexTree.Proofs.Stated

/-!
# What does not depend on the identifiers drawn

A text is decoded, compiled, reported on and checked by different commands, each with its own identifiers for the nodes that
state none. `front_ends_agree` says that they accept the same texts and give the same regex: a text that is refused is refused
with the same error, and the trees of a text that is accepted compile alike.
-/

namespace RegexTree

variable {σ τ : Type}

namespace FrontEndAux

open Pattern StatedAux

/-! ## Decoding twice -/

/-- The first offence of a walk is the first that a search finds. -/
theorem find?_offence {before after : List Draft.Visit} {v : Draft.Visit} {o : Offence}
    (hb : ∀ u ∈ before, u.node.offence? = none) (ho : v.node.offence? = some o) :
    (before ++ v :: after).find? (·.node.offence?.isSome) = some v :=
  List.find?_eq_some_iff_append.2 ⟨by rw [ho]; rfl, before, after, rfl, fun u hu => by rw [hb u hu]; rfl⟩

/-- A draft that is refused is refused with the same error whatever the source of identifiers. -/
theorem toPattern_error (ids : IdSource σ) (ids' : IdSource τ) (path : List Nat) (d : Draft) (s : σ) (t : τ) {e : Error}
    (h : (d.toPattern ids path s).1 = .error e) : (d.toPattern ids' path t).1 = .error e := by
  have hd := OffenceAux.outcome_toPattern ids d path s
  have hd' := OffenceAux.outcome_toPattern ids' d path t
  generalize hvs : d.visits path = vs at hd hd'
  generalize d.toPattern ids path s = r at hd h
  generalize d.toPattern ids' path t = r' at hd' ⊢
  cases hd with
  | accepted p _ => cases h
  | @refused before after v o hv hb ho =>
    cases h
    cases hd' with
    | accepted q hq =>
      have hn := hq v (by simp [hv])
      rw [ho] at hn
      cases hn
    | @refused before' after' v' o' hv' hb' ho' =>
      have hf : (before ++ v :: after).find? (·.node.offence?.isSome) = some v := find?_offence hb ho
      rw [← hv, hv', find?_offence hb' ho'] at hf
      obtain rfl := Option.some.inj hf
      rw [Option.some.inj (ho'.symm.trans ho)]

/-- A text that is refused is refused with the same error whatever the source of identifiers. -/
theorem decode_error (ids : IdSource σ) (ids' : IdSource τ) (text : String) (s : σ) (t : τ) {e : Error}
    (h : (decode ids text s).1 = .error e) : (decode ids' text t).1 = .error e := by
  unfold decode decodeAs at h ⊢
  split at h
  · exact h
  · split at h
    · exact h
    · exact toPattern_error ids ids' [] _ s t h

/-! ## Compiling twice -/

/-- Two trees of one draft compile alike, and where both fail at a node that has an identifier in the draft, both show it. -/
theorem compile_assignIds (ids : IdSource σ) (ids' : IdSource τ) (limit : Nat) (d : Draft) {u : Pattern}
    (h : d.stated? = some u) (s : σ) (t : τ) :
    (∃ regex, (u.assignIds ids s).1.compile limit = .ok regex ∧ (u.assignIds ids' t).1.compile limit = .ok regex) ∨
      ∃ cause path type i j node,
        (u.assignIds ids s).1.compile limit = .error { cause, location := some { path, type := some type, id := i } } ∧
          (u.assignIds ids' t).1.compile limit = .error { cause, location := some { path, type := some type, id := j } } ∧
          d.reached? path = some node ∧ (node.id.isSome → i = node.id ∧ j = node.id) := by
  have hu := resolved_of_stated d u h
  have hr := ViolationAux.compileAt_reports limit [] 1 u hu
  have ha := MeaningAux.compileAt_alike limit [] 1 u _ hu (agrees_assignIds ids u s)
  have ha' := MeaningAux.compileAt_alike limit [] 1 u _ hu (agrees_assignIds ids' u t)
  simp only [compile]
  generalize violationsAt limit [] 1 u = vs, u.compileAt limit [] 1 = outcome at hr ha ha'
  generalize (u.assignIds ids s).1.compileAt limit [] 1 = first at ha ⊢
  generalize (u.assignIds ids' t).1.compileAt limit [] 1 = second at ha' ⊢
  cases hr with
  | regex regex =>
    cases ha
    cases ha'
    exact Or.inl ⟨regex, rfl, rfl⟩
  | @failure below node cause rest hn =>
    obtain ⟨e, he, hid⟩ := reached?_of_at? below d u node h hn
    cases ha with
    | @failure _ _ _ _ i hi =>
      cases ha' with
      | @failure _ _ _ _ j hj =>
        refine Or.inr ⟨cause, below, node.type, i, j, e, rfl, rfl, he, fun hs => ?_⟩
        rw [← hid] at hs ⊢
        exact ⟨hi hs, hj hs⟩

/-- Two trees of one text compile alike, and where both fail at a node that has an identifier in the text, both show it. -/
theorem compile_decode {ids : IdSource σ} {ids' : IdSource τ} (limit : Nat) {text : String} {s : σ} {t : τ} {p q : Pattern}
    (hp : (decode ids text s).1 = .ok p) (hq : (decode ids' text t).1 = .ok q) :
    (∃ regex, p.compile limit = .ok regex ∧ q.compile limit = .ok regex) ∨
      ∃ cause path type i j format d node,
        p.compile limit = .error { cause, location := some { path, type := some type, id := i } } ∧
          q.compile limit = .error { cause, location := some { path, type := some type, id := j } } ∧
          Format.detect text = some format ∧ Draft.ofText? format text = some d ∧ d.reached? path = some node ∧
          (node.id.isSome → i = node.id ∧ j = node.id) := by
  obtain ⟨format, d, u, hf, hd, hu, ha⟩ := decode_ok hp
  obtain ⟨format', d', u', hf', hd', hu', ha'⟩ := decode_ok hq
  obtain rfl : format = format' := Option.some.inj (hf.symm.trans hf')
  obtain rfl : d = d' := Option.some.inj (hd.symm.trans hd')
  obtain rfl : u = u' := Option.some.inj (hu.symm.trans hu')
  have hc := compile_assignIds ids ids' limit d hu s t
  rw [ha, ha'] at hc
  rcases hc with hc | ⟨cause, path, type, i, j, node, he, he', hn, hk⟩
  · exact Or.inl hc
  · exact Or.inr ⟨cause, path, type, i, j, format, d, node, he, he', hf, hd, hn, hk⟩

/-! ## Regexes from texts -/

/-- The text is accepted and its tree compiles to the regex. -/
def Yields (ids : IdSource σ) (limit : Nat) (text : String) (s : σ) (regex : String) : Prop :=
  ∃ p, (decode ids text s).1 = .ok p ∧ p.compile limit = .ok regex

/-- A text yields the same regex whatever the source of identifiers. -/
theorem Yields.change {ids : IdSource σ} {limit : Nat} {text : String} {s : σ} {regex : String}
    (h : Yields ids limit text s regex) (ids' : IdSource τ) (t : τ) : Yields ids' limit text t regex := by
  obtain ⟨p, hp, hr⟩ := h
  cases hq : (decode ids' text t).1 with
  | error e =>
    rw [decode_error ids' ids text t s hq] at hp
    cases hp
  | ok q =>
    refine ⟨q, hq, ?_⟩
    rcases compile_decode limit hp hq with ⟨regex', hr', hq'⟩ | ⟨cause, path, type, i, j, format, d, node, he, -⟩
    · rw [hq', ← hr', hr]
    · rw [hr] at he
      cases he

/-- Compiling a text gives what its tree compiles to. -/
theorem compileText_eq_ok {ids : IdSource σ} {limit : Nat} {text : String} {s : σ} {regex : String} :
    (compileText ids limit text s).1 = .ok regex ↔ Yields ids limit text s regex := by
  unfold compileText Yields
  rcases decode ids text s with ⟨e | p, s'⟩
  · exact ⟨nofun, nofun⟩
  · exact ⟨fun h => ⟨p, rfl, h⟩, fun ⟨q, hq, hr⟩ => by cases hq; exact hr⟩

/-- What is made of a result is a success where the result is one. -/
theorem map_eq_ok {α β : Type} {result : Except Error α} {f : α → β} {b : β} :
    result.map f = .ok b ↔ ∃ a, result = .ok a ∧ f a = b := by
  rcases result with e | a <;> simp [Except.map]

/-- The regex of a report is what compiling gives, and a report fails as compiling does. -/
theorem map_output_ofText (ids : IdSource σ) (limit : Nat) (text : String) (s : σ) :
    (Report.ofText ids limit text s).1.map Report.output = (compileText ids limit text s).1 := by
  unfold Report.ofText compileText decode
  cases Format.detect text with
  | none => rfl
  | some format =>
    simp only
    rcases decodeAs ids format text s with ⟨e | p, s'⟩
    · rfl
    · simp only
      cases p.compile limit <;> rfl

/-- A report is made where compiling succeeds, and has the regex in it. -/
theorem output_ofText {ids : IdSource σ} {limit : Nat} {text : String} {s : σ} {regex : String} :
    (compileText ids limit text s).1 = .ok regex ↔
      ∃ report, (Report.ofText ids limit text s).1 = .ok report ∧ report.output = regex := by
  rw [← map_output_ofText, map_eq_ok]

open CommandLine

/-- An outcome shows a text where that is the result. -/
theorem ofResult_eq_iff {result : Except Error String} {text : String} :
    Outcome.ofResult result = { stdout := text ++ "\n" } ↔ result = .ok text := by
  cases result with
  | error e => exact ⟨nofun, nofun⟩
  | ok shown =>
    refine ⟨fun h => ?_, fun h => by cases h; rfl⟩
    rw [(String.append_left_inj "\n").1 (congrArg Outcome.stdout h)]

/-- An outcome is a success where there is a result. -/
theorem code_ofResult {result : Except Error String} : (Outcome.ofResult result).code = 0 ↔ ∃ text, result = .ok text := by
  cases result with
  | error e => exact ⟨nofun, nofun⟩
  | ok shown => exact ⟨fun _ => ⟨shown, rfl⟩, fun _ => rfl⟩

/-- The outcome of compiling with a report is what the report prints. -/
theorem answer_report {ids : IdSource σ} {limit : Nat} {input text shown : String} {s : σ} :
    (Command.compile input false true limit).answer ids text s = { stdout := shown ++ "\n" } ↔
      ∃ report, (Report.ofText ids limit text s).1 = .ok report ∧ report.text = shown := by
  simp only [Command.answer, if_true, ofResult_eq_iff, map_eq_ok]

/-- The outcome of compiling with a report shows the regex of the report. -/
theorem answer_shows {ids : IdSource σ} {limit : Nat} {input text regex : String} {s : σ} :
    (∃ shown, (Command.compile input false true limit).answer ids text s = { stdout := shown ++ "\n" } ∧
        Report.Shows shown regex) ↔
      ∃ report, (Report.ofText ids limit text s).1 = .ok report ∧ report.output = regex := by
  constructor
  · rintro ⟨shown, hanswer, hshows⟩
    obtain ⟨report, hr, rfl⟩ := answer_report.1 hanswer
    exact ⟨report, hr, (Report.shows_text_iff (Report.isLine_tree hr)).1 hshows⟩
  · rintro ⟨report, hr, houtput⟩
    exact ⟨report.text, answer_report.2 ⟨report, hr, rfl⟩, (Report.shows_text_iff (Report.isLine_tree hr)).2 houtput⟩

/-- The outcome of a check shows the regex of the input. -/
theorem check_eq_iff {ids : IdSource σ} {input text regex : String} {s : σ} :
    (Command.check input false).answer ids text s =
        { stdout := "✓ Valid: " ++ input ++ "\n  Output: " ++ regex ++ "\n" } ↔
      (compileText ids defaultDepthLimit text s).1 = .ok regex := by
  simp only [Command.answer, Command.regexOf, Bool.false_eq_true, if_false]
  cases (compileText ids defaultDepthLimit text s).1 with
  | error e => exact ⟨nofun, nofun⟩
  | ok shown =>
    refine ⟨fun h => ?_, fun h => by cases h; rfl⟩
    have hs := (String.append_left_inj "\n").1 (congrArg Outcome.stdout h)
    rw [(String.append_right_inj _).1 hs]

/-- A check is a success where the input has a regex. -/
theorem code_check {ids : IdSource σ} {input text : String} {s : σ} :
    ((Command.check input false).answer ids text s).code = 0 ↔
      ∃ regex, (compileText ids defaultDepthLimit text s).1 = .ok regex := by
  simp only [Command.answer, Command.regexOf, Bool.false_eq_true, if_false]
  cases (compileText ids defaultDepthLimit text s).1 with
  | error e => exact ⟨nofun, nofun⟩
  | ok shown => exact ⟨fun _ => ⟨shown, rfl⟩, fun _ => rfl⟩

end FrontEndAux

open Pattern CommandLine FrontEndAux

/-- Whatever identifiers two decodings of a text draw, both fail with the same error, or both succeed and their trees compile to
the same regex, or to failures of one cause at one path and kind of node, where both show the identifier that the text states
for this node, if it states one. So the report of a text, the command that compiles it, with a report and without, the command
that checks it and the plain compilation of its tree all succeed on the same texts and give the same regex: without a report it
is all that the command prints, and with one it is what is printed behind the label of the output, as the only regex shown. -/
theorem front_ends_agree (ids : IdSource σ) (ids' : IdSource τ) (limit : Nat) (text : String) (s : σ) (t : τ) :
    (match (decode ids text s).1, (decode ids' text t).1 with
      | .error e, .error e' => e = e'
      | .ok p, .ok q =>
        (∃ regex, p.compile limit = .ok regex ∧ q.compile limit = .ok regex) ∨
          ∃ cause path type i j format d node,
            p.compile limit = .error { cause, location := some { path, type := some type, id := i } } ∧
              q.compile limit = .error { cause, location := some { path, type := some type, id := j } } ∧
              Format.detect text = some format ∧ Draft.ofText? format text = some d ∧ d.reached? path = some node ∧
              (node.id.isSome → i = node.id ∧ j = node.id)
      | _, _ => False) ∧
      (∀ regex,
        (Yields ids limit text s regex ↔ (compileText ids' limit text t).1 = .ok regex) ∧
        (Yields ids limit text s regex ↔ ∃ report, (Report.ofText ids' limit text t).1 = .ok report ∧ report.output = regex) ∧
        ∀ input,
          (Yields ids limit text s regex ↔
            (Command.compile input false false limit).answer ids' text t = { stdout := regex ++ "\n" }) ∧
          (Yields ids limit text s regex ↔
            ∃ report, (Report.ofText ids' limit text t).1 = .ok report ∧ report.output = regex ∧
              (Command.compile input false true limit).answer ids' text t = { stdout := report.text ++ "\n" } ∧
              Report.Shows report.text regex) ∧
          (Yields ids limit text s regex ↔
            ∃ shown, (Command.compile input false true limit).answer ids' text t = { stdout := shown ++ "\n" } ∧
              Report.Shows shown regex) ∧
          (Yields ids defaultDepthLimit text s regex ↔
            (Command.check input false).answer ids' text t =
              { stdout := "✓ Valid: " ++ input ++ "\n  Output: " ++ regex ++ "\n" })) ∧
      ∀ input report,
        (((Command.compile input false report limit).answer ids' text t).code = 0 ↔ ∃ regex, Yields ids limit text s regex) ∧
        (((Command.check input false).answer ids' text t).code = 0 ↔ ∃ regex, Yields ids defaultDepthLimit text s regex) := by
  have hy : ∀ limit regex, Yields ids limit text s regex ↔ (compileText ids' limit text t).1 = .ok regex := fun limit regex =>
    ⟨fun h => compileText_eq_ok.2 (h.change ids' t), fun h => (compileText_eq_ok.1 h).change ids s⟩
  refine ⟨?_, fun regex => ⟨hy limit regex, (hy limit regex).trans output_ofText, fun input => ⟨?_, ?_, ?_, ?_⟩⟩,
    fun input report => ⟨?_, ?_⟩⟩
  · cases hp : (decode ids text s).1 with
    | error e =>
      rw [decode_error ids ids' text s t hp]
    | ok p =>
      cases hq : (decode ids' text t).1 with
      | error e =>
        rw [decode_error ids' ids text t s hq] at hp
        cases hp
      | ok q => exact compile_decode limit hp hq
  · exact (hy limit regex).trans ofResult_eq_iff.symm
  · refine ((hy limit regex).trans output_ofText).trans (exists_congr fun report => and_congr_right fun hr => ?_)
    have hshows : Report.Shows report.text regex ↔ report.output = regex := Report.shows_text_iff (Report.isLine_tree hr)
    rw [hshows]
    exact ⟨fun ho => ⟨ho, answer_report.2 ⟨report, hr, rfl⟩, ho⟩, And.left⟩
  · exact ((hy limit regex).trans output_ofText).trans answer_shows.symm
  · exact (hy defaultDepthLimit regex).trans check_eq_iff.symm
  · simp only [Command.answer, hy]
    cases report with
    | false => exact code_ofResult
    | true =>
      simp only [if_true, code_ofResult, output_ofText, map_eq_ok]
      constructor
      · rintro ⟨_, r, hr, -⟩
        exact ⟨r.output, r, hr, rfl⟩
      · rintro ⟨_, r, hr, -⟩
        exact ⟨r.text, r, hr, rfl⟩
  · exact code_check.trans (exists_congr fun regex => (hy defaultDepthLimit regex).symm)

end RegexTree
