import PackageTriage.Proofs.Grids.Files
import PackageTriage.Settings.Json

/-!
# Settings are read back

Settings that a text spells are written as a text that spells them again, if the reader of numbers reads theirs back.
The exception is a coefficient that was spelled out as an infinity or as no number: it becomes null in the file, which
no coefficient is read from.
-/

namespace PackageTriage

open Json

theorem Directories.lasting : Lasting Directories.ofJson? Directories.toJson always := by
  intro j d h
  rw [Directories.ofJson?] at h
  obtain ⟨given, -, h⟩ := Option.bind_eq_some_iff.1 h
  split at h
  · obtain ⟨models, -, h⟩ := Option.bind_eq_some_iff.1 h
    obtain ⟨results, -, h⟩ := Option.bind_eq_some_iff.1 h
    obtain ⟨reports, -, h⟩ := Option.bind_eq_some_iff.1 h
    obtain ⟨features, -, h⟩ := Option.bind_eq_some_iff.1 h
    obtain rfl := Option.some.inj h
    refine ⟨readable_record (by simp [(lasts_string _).readable]), ?_⟩
    rw [Directories.toJson, Directories.ofJson?, fields?_record rfl]
    simp [orDefault?, (lasts_string _).eq_some, always]
  · simp at h

theorem Directories.lasts_default : Lasts Directories.ofJson? Directories.toJson always default :=
  @Directories.lasting (.object []) _ rfl

namespace Settings

def classifiersJson (c : Classifiers) : Json :=
  .record [("models", .ofList Choice.toJson c.1), ("preprocess_methods", .ofList Choice.toJson c.2.1),
    ("hyperparameters", c.2.2.toJson)]

/-- The settings of the classifiers last where their numbers do. -/
theorem lasts_of_classifiers? [NumberReader] {j : Json} {c : Classifiers} (h : classifiers? j = some c)
    (hback : ∀ x ∈ c.2.2.numbers, ReadsBack x) :
    Lasts classifiers? classifiersJson (fun c => c.2.2.machine.isWritten) c := by
  rw [classifiers?] at h
  obtain ⟨given, -, h⟩ := Option.bind_eq_some_iff.1 h
  split at h
  · obtain ⟨families, -, h⟩ := Option.bind_eq_some_iff.1 h
    obtain ⟨methods, -, h⟩ := Option.bind_eq_some_iff.1 h
    obtain ⟨grids, hgrids, h⟩ := Option.bind_eq_some_iff.1 h
    obtain rfl := Option.some.inj h
    have hfamilies := lasts_choices ofName?_family families
    have hmethods := lasts_choices ofName?_method methods
    obtain ⟨_, hgrids⟩ := exists_of_orDefault? hgrids ⟨.object [], rfl⟩
    have hgrids := Grids.lasts_of_ofJson? hgrids hback
    refine ⟨readable_record (by simp [hfamilies.readable, hmethods.readable, hgrids.readable]), ?_⟩
    rw [classifiersJson, classifiers?, fields?_record rfl]
    simp only [List.map_cons, List.map_nil, orDefault?, hfamilies.eq_some, hmethods.eq_some, hgrids.read_write,
      Option.bind_eq_bind, Option.bind_some]
    split <;> rfl
  · simp at h

/-- Settings read from a file last, as far as their coefficients can be written. -/
theorem lasts_of_ofJson? [NumberReader] {j : Json} {s : Settings Float} (h : ofJson? j = some s)
    (hback : ∀ x ∈ s.grids.numbers, ReadsBack x) : Lasts ofJson? toJson (fun s => s.grids.machine.isWritten) s := by
  rw [ofJson?] at h
  obtain ⟨given, -, h⟩ := Option.bind_eq_some_iff.1 h
  split at h
  · obtain ⟨directories, hdirectories, h⟩ := Option.bind_eq_some_iff.1 h
    obtain ⟨classifiers, hclassifiers, h⟩ := Option.bind_eq_some_iff.1 h
    obtain rfl := Option.some.inj h
    have hdirectories := lasts_orDefault Directories.lasting Directories.lasts_default hdirectories
    obtain ⟨_, hclassifiers⟩ := exists_of_orDefault? hclassifiers ⟨.object [], rfl⟩
    have hclassifiers := lasts_of_classifiers? hclassifiers hback
    refine ⟨readable_record (by simpa using ⟨hdirectories.readable, hclassifiers.readable⟩), ?_⟩
    have hclassifiers' := hclassifiers.read_write
    rw [classifiersJson] at hclassifiers'
    rw [toJson, ofJson?, fields?_record rfl]
    simp only [List.map_cons, List.map_nil, orDefault?, hdirectories.eq_some, hclassifiers', Option.bind_eq_bind,
      Option.bind_some]
    split <;> rfl
  · simp at h

theorem exists_of_parse [NumberReader] {text : String} {s : Settings Float} (h : parse text = .ok s) :
    ∃ j, ofJson? j = some s := by
  rw [parse] at h
  split at h
  · next hread =>
    obtain rfl := Except.ok.inj h
    obtain ⟨j, -, hj⟩ := Option.bind_eq_some_iff.1 hread
    exact ⟨j, hj⟩
  · cases h

/-- The text of settings that last. -/
theorem parse_render_of_lasts [NumberReader] {s : Settings Float}
    (h : Lasts ofJson? toJson (fun s => s.grids.machine.isWritten) s) :
    parse s.render = if s.grids.machine.isWritten then .ok s else .error .settings := by
  rw [parse, render, read?_pretty h.readable, Option.bind_some, h.read_write]
  cases s.grids.machine.isWritten <;> rfl

/-- The defaults are read back. -/
theorem parse_render_default : parse (default : Settings Float).render = .ok default := by
  have hwritten : (default : Settings Float).grids.machine.isWritten = true := by decide +kernel
  have hback : ∀ x ∈ (default : Settings Float).grids.numbers, ReadsBack x := by decide +kernel
  have hdefault : ofJson? (.object []) = some (default : Settings Float) := rfl
  exact (parse_render_of_lasts (lasts_of_ofJson? hdefault hback)).trans (if_pos hwritten)

/-- Whatever reads the numbers: settings that a text spells, and whose own numbers are read back, are spelled again by
the text that is written for them, unless a coefficient among them is not finite. Then the written text is refused. -/
theorem parse_render [NumberReader] {text : String} {s : Settings Float} (h : parse text = .ok s)
    (hback : ∀ x ∈ s.grids.numbers, ReadsBack x) :
    parse s.render = if s.grids.machine.gammas.all Gamma.isWritten then .ok s else .error .settings := by
  obtain ⟨j, hs⟩ := exists_of_parse h
  exact parse_render_of_lasts (lasts_of_ofJson? hs hback)

/-- A text with an old name, a family given as an object, no depth at all and a coefficient in quotes. -/
def mixedText : String :=
  "\x7b\"classifier\": \x7b\"models\": [\x7b\"RF\": null\x7d], \"hyperparameters\": \x7b" ++
    "\"RF\": \x7b\"maxium_depths\": [null, 3]\x7d, \"SVM\": \x7b\"gammas\": [\" 1e3 \", \"poly\"]\x7d\x7d\x7d\x7d"

def mixedJson : Json :=
  .record [("classifier", .record [("models", .list [.record [("RF", .null)]]),
    ("hyperparameters", .record [("RF", .record [("maxium_depths", .list [.null, .number "3"])]),
      ("SVM", .record [("gammas", .list [.ofString " 1e3 ", .ofString "poly"])])])])]

def mixed : Settings Float :=
  { (default : Settings Float) with
    families := [.randomForest]
    grids :=
      { (default : Grids Float) with
        forest := ⟨ForestGrid.default.trees, [none, some 3]⟩
        machine := ⟨[.value (Decimal.nearest 1 3), .named "poly"], MachineGrid.default.c⟩ } }

theorem read?_mixedText : Json.read? mixedText = some mixedJson := by cbv

theorem parse_mixedText : parse mixedText = .ok mixed := by
  rw [parse, read?_mixedText]
  rfl

theorem parse_render_mixed : parse mixedText = .ok mixed ∧ (∀ x ∈ mixed.grids.numbers, ReadsBack x) ∧
    parse mixed.render = .ok mixed := by
  have hwritten : mixed.grids.machine.gammas.all Gamma.isWritten = true := by decide +kernel
  have hback : ∀ x ∈ mixed.grids.numbers, ReadsBack x := by decide +kernel
  exact ⟨parse_mixedText, hback, (parse_render parse_mixedText hback).trans (if_pos hwritten)⟩

def infiniteText : String :=
  "\x7b\"classifier\": \x7b\"hyperparameters\": \x7b\"SVM\": \x7b\"gammas\": [\"inf\"]\x7d\x7d\x7d\x7d"

def infiniteJson : Json :=
  .record [("classifier", .record [("hyperparameters",
    .record [("SVM", .record [("gammas", .list [.ofString "inf"])])])])]

def infinite : Settings Float :=
  { (default : Settings Float) with
    grids := { (default : Grids Float) with machine := ⟨[.value (1.0 / 0.0)], MachineGrid.default.c⟩ } }

theorem read?_infiniteText : Json.read? infiniteText = some infiniteJson := by cbv

theorem ofJson?_infiniteJson : ofJson? infiniteJson = some infinite := rfl

/-- The text that is written for an infinite coefficient is refused. -/
theorem refused_infinite : parse infiniteText = .ok infinite ∧ parse infinite.render = .error .settings := by
  have hwritten : infinite.grids.machine.isWritten = false := by decide +kernel
  have hback : ∀ x ∈ infinite.grids.numbers, ReadsBack x := by decide +kernel
  have hrender := parse_render_of_lasts (lasts_of_ofJson? ofJson?_infiniteJson hback)
  rw [hwritten] at hrender
  refine ⟨?_, hrender⟩
  rw [parse, read?_infiniteText, Option.bind_some, ofJson?_infiniteJson]

end Settings

end PackageTriage
