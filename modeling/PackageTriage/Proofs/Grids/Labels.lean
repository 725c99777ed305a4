import PackageTriage.Hyperparameters
import PackageTriage.Proofs.Grids.Files
import PackageTriage.Proofs.Scalar.Comparison

/-!
# Labels tell hyperparameters apart

A label strings the values of hyperparameters together without any quoting. It is read from the left: what marks the
end of a value does not occur in the value, and no two values are written alike. Only the name of a coefficient may
hold any characters, and it stands last; it is none of the texts of numbers, since these are not kept as names.
-/

namespace PackageTriage

open Float.Model UnpackedFloat

/-- A character that does not occur in two texts ends both of them. -/
theorem append_mark_inj {a b mark r s : String} {c : Char} (hmark : mark.toList.head? = some c) (ha : c ∉ a.toList)
    (hb : c ∉ b.toList) (h : a ++ (mark ++ r) = b ++ (mark ++ s)) : a = b ∧ r = s := by
  obtain ⟨cs, hcs⟩ := List.head?_eq_some_iff.1 hmark
  have hfirst {t u : String} (ht : c ∉ t.toList) :
      (t ++ (mark ++ u)).toList.takeWhile (· ≠ c) = t.toList := by
    rw [String.toList_append, String.toList_append, hcs, List.takeWhile_append_of_pos, List.cons_append,
      List.takeWhile_cons_of_neg, List.append_nil]
    · simp
    · intro d hd
      simpa using ne_of_mem_of_not_mem hd ht
  have hvalue : a = b := String.toList_injective (by rw [← hfirst ha, h, hfirst hb])
  subst hvalue
  exact ⟨rfl, (String.append_right_inj mark).1 ((String.append_right_inj a).1 h)⟩

namespace Binary

open Decimal

theorem semicolon_notMem_digits {ds : List Char} (h : ∀ c ∈ ds, c.isDigit = true) : ';' ∉ ds :=
  fun hmem => absurd (h _ hmem) (by decide)

theorem semicolon_notMem_power {cs : List Char} {k : ℤ} (h : IsPower cs k) : ';' ∉ cs := by
  cases h with
  | none => exact List.not_mem_nil
  | plain ds _ hds => simp [semicolon_notMem_digits hds]
  | plus ds _ hds => simp [semicolon_notMem_digits hds]
  | minus ds _ hds => simp [semicolon_notMem_digits hds]

/-- No numeral contains the mark that separates the parts of a label. -/
theorem semicolon_notMem_chars (p : Numeral) : ';' ∉ p.chars := by
  have hwhole := semicolon_notMem_digits p.isWhole.2.1
  have hfraction := semicolon_notMem_digits p.isDigit
  have hpointed : ';' ∉ pointed p.fraction := by
    cases hcases : p.fraction with
    | nil => exact List.not_mem_nil
    | cons d ds =>
      rw [hcases] at hfraction
      simpa [pointed] using hfraction
  simp [Numeral.chars, hwhole, hpointed, semicolon_notMem_power p.isPower]

theorem readable_plain : NumberStyle.plain.Readable := .inl rfl

theorem text_infinity {x : Float} {s : Sign} (hx : unpacked x = .infinity s) :
    Scalar.text x = NumberStyle.signed s "inf" := by
  show NumberStyle.plain.render x = _
  rw [NumberStyle.render, ← unpacked, hx]

/-- A number is read back from its text, an infinite one too. -/
theorem readFloat?_text {x : Float} (hx : Scalar.isNumber x = true) : readFloat? (Scalar.text x) = some x := by
  rcases number_cases hx with hfinite | hinfinite | hinfinite
  · exact NumberStyle.readFloat?_render readable_plain hfinite
  · have hvalue : readFloat? "inf" = some (1.0 / 0.0) := by decide +kernel
    rw [text_infinity hinfinite, NumberStyle.signed, hvalue]
    exact congrArg some (unpacked_injective hinfinite.symm)
  · have hvalue : readFloat? "-inf" = some (-(1.0 / 0.0)) := by decide +kernel
    rw [text_infinity hinfinite]
    exact hvalue.trans (congrArg some (unpacked_injective hinfinite.symm))

/-- Different numbers are written differently. -/
theorem text_injective {x y : Float} (hx : Scalar.isNumber x = true) (hy : Scalar.isNumber y = true)
    (h : Scalar.text x = Scalar.text y) : x = y := by
  have hread := readFloat?_text hx
  rw [h, readFloat?_text hy] at hread
  exact (Option.some.inj hread).symm

theorem semicolon_notMem_text {x : Float} (hx : Scalar.isNumber x = true) : ';' ∉ (Scalar.text x).toList := by
  have hsigned {text : String} (htext : ';' ∉ text.toList) (s : Sign) : ';' ∉ (NumberStyle.signed s text).toList := by
    cases s <;> simp [NumberStyle.signed, htext]
  rcases number_cases hx with hfinite | hinfinite | hinfinite
  · obtain ⟨s, p, hrender, -⟩ := NumberStyle.render_eq readable_plain hfinite
    have htext : Scalar.text x = NumberStyle.signed s (String.ofList p.chars) := hrender
    rw [htext]
    exact hsigned (by rw [String.toList_ofList]; exact semicolon_notMem_chars p) s
  · rw [text_infinity hinfinite]
    exact hsigned (by decide) _
  · rw [text_infinity hinfinite]
    exact hsigned (by decide) _

end Binary

section

open Decimal

theorem toList_toString (n : ℕ) : (toString n).toList = Nat.toDigits 10 n := Nat.toList_repr

theorem isDigit_toString (n : ℕ) : ∀ c ∈ (toString n).toList, c.isDigit = true := by
  rw [toList_toString]
  exact isDigit_toDigits n

theorem toString_injective : Function.Injective (toString : ℕ → String) := by
  intro m n h
  rw [← digitsToNat_toDigits m, ← digitsToNat_toDigits n, ← toList_toString, ← toList_toString, h]

/-- What is not a digit is in no whole number. -/
theorem notMem_toString {c : Char} (hc : c.isDigit = false) (n : ℕ) : c ∉ (toString n).toList :=
  fun hmem => Bool.false_ne_true (hc.symm.trans (isDigit_toString n c hmem))

def sizesText (sizes : List ℕ) : String := ",".intercalate (sizes.map toString)

theorem toList_sizesText (sizes : List ℕ) :
    (sizesText sizes).toList = [','].intercalate (sizes.map fun n => (toString n).toList) := by
  rw [sizesText, String.toList_intercalate, List.map_map]
  rfl

/-- Sizes are read back between the commas. There is none exactly if there is no text. -/
theorem splitOn_sizesText {sizes : List ℕ} (h : sizes ≠ []) :
    (sizesText sizes).toList.splitOn ',' = sizes.map fun n => (toString n).toList := by
  rw [toList_sizesText]
  refine List.splitOn_intercalate ',' (fun text htext => ?_) (by simpa using h)
  obtain ⟨n, -, rfl⟩ := List.mem_map.1 htext
  exact notMem_toString (by decide) n

theorem sizesText_ne_empty {sizes : List ℕ} (h : sizes ≠ []) : sizesText sizes ≠ sizesText [] := by
  intro hempty
  obtain ⟨n, ns, rfl⟩ := List.exists_cons_of_ne_nil h
  have hsplit := splitOn_sizesText h
  rw [hempty] at hsplit
  have hfirst : (toString n).toList = [] := (List.cons.inj hsplit).1.symm
  rw [toList_toString] at hfirst
  exact Nat.toDigits_ne_nil hfirst

/-- Lists of layer sizes are written differently, the empty list included. -/
theorem sizesText_injective : Function.Injective sizesText := by
  intro ms ns h
  by_cases hm : ms = [] <;> by_cases hn : ns = []
  · rw [hm, hn]
  · exact absurd (hm ▸ h.symm) (sizesText_ne_empty hn)
  · exact absurd (hn ▸ h) (sizesText_ne_empty hm)
  · have hinjective : Function.Injective fun n : ℕ => (toString n).toList :=
      fun _ _ h => toString_injective (String.toList_injective h)
    refine List.map_injective_iff.2 hinjective ?_
    show ms.map (fun n => (toString n).toList) = ns.map fun n => (toString n).toList
    rw [← splitOn_sizesText hm, ← splitOn_sizesText hn, h]

/-- What is neither a digit nor a comma is not among sizes. -/
theorem notMem_sizesText {c : Char} (hdigit : c.isDigit = false) (hcomma : c ≠ ',') (sizes : List ℕ) :
    c ∉ (sizesText sizes).toList := by
  rw [toList_sizesText]
  induction sizes with
  | nil => simp
  | cons n ns ih =>
    have hn := notMem_toString hdigit n
    cases ns with
    | nil => simpa using hn
    | cons m ns =>
      rw [List.map_cons] at ih
      rw [List.map_cons, List.map_cons, List.intercalate_cons_cons]
      simp only [List.mem_append, List.mem_singleton, hn, hcomma, ih, or_false, not_false_eq_true]

end

/-- Choices that are read back from their names have names of their own. -/
theorem Choice.name_injective {β : Type} [Choice β] (h : ∀ b : β, Choice.ofName? (Choice.name b) = some b) :
    Function.Injective (Choice.name : β → String) := by
  intro a b hab
  have hread := h a
  rw [hab, h b] at hread
  exact (Option.some.inj hread).symm

/-- The coefficient is a number, or a name that is left over where a text was no number. -/
def Gamma.IsLegible : Gamma Float → Prop
  | .value v => Scalar.isNumber v = true
  | .named name => ∃ raw, Gamma.parse raw = .named name

/-- Coefficients whose names are legible are told apart by their texts. -/
theorem Gamma.text_injective {g h : Gamma Float} (hg : g.IsLegible) (hh : h.IsLegible) (htext : g.text = h.text) :
    g = h := by
  have hname {v : Float} (hv : Scalar.isNumber v = true) {raw name : String} (hraw : Gamma.parse raw = .named name) :
      Scalar.text v ≠ name := by
    rintro rfl
    rw [parse] at hraw
    split at hraw
    · cases hraw
    · next hnone =>
      rw [Gamma.named.inj hraw, Binary.readFloat?_text hv] at hnone
      cases hnone
  cases g with
  | value v =>
    cases h with
    | value w => exact congrArg _ (Binary.text_injective hg hh htext)
    | named name =>
      obtain ⟨raw, hraw⟩ := hh
      exact absurd htext (hname hg hraw)
  | named name =>
    cases h with
    | value w =>
      obtain ⟨raw, hraw⟩ := hg
      exact absurd htext.symm (hname hh hraw)
    | named name' => exact congrArg _ htext

namespace Hyperparameters

/-- All floats are numbers, and the coefficient can be told from its text. -/
def IsLegible : Hyperparameters Float → Prop
  | randomForest _ _ => True
  | perceptron rate _ _ _ _ => Scalar.isNumber rate = true
  | naiveBayes smoothing => Scalar.isNumber smoothing = true
  | vectorMachine gamma c => gamma.IsLegible ∧ Scalar.isNumber c = true

def depthText : Option ℕ → String
  | none => "None"
  | some depth => toString depth

theorem depthText_injective : Function.Injective depthText := by
  have hnone (depth : ℕ) : depthText none ≠ depthText (some depth) := by
    intro h
    have hmem : 'N' ∈ (toString depth).toList := by
      rw [← show depthText none = toString depth from h]
      decide
    exact notMem_toString (by decide) depth hmem
  intro a b h
  cases a with
  | none =>
    cases b with
    | none => rfl
    | some depth => exact absurd h (hnone depth)
  | some depth =>
    cases b with
    | none => exact absurd h.symm (hnone depth)
    | some depth' => exact congrArg some (toString_injective h)

theorem label_randomForest (trees : ℕ) (maxDepth : Option ℕ) :
    (randomForest trees maxDepth : Hyperparameters Float).label =
      "estimators=" ++ (toString trees ++ ("; max_depth=" ++ depthText maxDepth)) := by
  cases maxDepth with
  | none =>
    rw [← String.append_assoc]
    rfl
  | some depth =>
    rw [← String.append_assoc, ← String.append_assoc]
    rfl

theorem label_perceptron (rate : Float) (hidden : List ℕ) (iterations : ℕ) (solver : Solver)
    (activation : Activation) : (perceptron rate hidden iterations solver activation).label =
      "layer_size=(" ++ (sizesText hidden ++ ("); activation=" ++ (activation.name ++ ("; solver=" ++ (solver.name ++
        ("; learning_rate=" ++ (Scalar.text rate ++ ("; max_iter=" ++ toString iterations)))))))) := by
  simp only [← String.append_assoc]
  rfl

theorem label_vectorMachine (gamma : Gamma Float) (c : Float) :
    (vectorMachine gamma c).label = "c=" ++ (Scalar.text c ++ ("; gamma=" ++ gamma.text)) := by
  rw [← String.append_assoc, ← String.append_assoc]
  rfl

/-- Labels of different families begin differently. -/
def initial : Family → Char
  | .randomForest => 'e'
  | .perceptron => 'l'
  | .naiveBayes => 's'
  | .vectorMachine => 'c'

/-- The first character of a label tells the family. -/
theorem head_label (p : Hyperparameters Float) : p.label.toList.head? = some (initial p.family) := by
  cases p with
  | randomForest trees maxDepth => simp [label_randomForest, initial, family]
  | perceptron rate hidden iterations solver activation => simp [label_perceptron, initial, family]
  | naiveBayes smoothing =>
    have hlabel : (naiveBayes smoothing).label = "smoothing=" ++ Scalar.text smoothing := rfl
    simp [hlabel, initial, family]
  | vectorMachine gamma c => simp [label_vectorMachine, initial, family]

/-- Hyperparameters whose floats are numbers have a label of their own. -/
theorem label_injective {p q : Hyperparameters Float} (hp : p.IsLegible) (hq : q.IsLegible) (h : p.label = q.label) :
    p = q := by
  have hinitial : Function.Injective initial := by
    intro f g hfg
    cases f <;> cases g <;> first | rfl | exact absurd hfg (by decide)
  have hfamily : p.family = q.family := hinitial (Option.some.inj (by rw [← head_label, ← head_label, h]))
  cases p with
  | randomForest trees maxDepth =>
    cases q with
    | randomForest trees' maxDepth' =>
      rw [label_randomForest, label_randomForest, String.append_right_inj] at h
      obtain ⟨htrees, hdepth⟩ := append_mark_inj (c := ';') rfl (notMem_toString (by decide) _)
        (notMem_toString (by decide) _) h
      rw [toString_injective htrees, depthText_injective hdepth]
    | perceptron | naiveBayes | vectorMachine => cases hfamily
  | perceptron rate hidden iterations solver activation =>
    cases q with
    | perceptron rate' hidden' iterations' solver' activation' =>
      have hactivation (a : Activation) : ';' ∉ a.name.toList := by cases a <;> decide
      have hsolver (s : Solver) : ';' ∉ s.name.toList := by cases s <;> decide
      rw [label_perceptron, label_perceptron, String.append_right_inj] at h
      obtain ⟨hhidden, h⟩ := append_mark_inj (c := ')') rfl (notMem_sizesText (by decide) (by decide) _)
        (notMem_sizesText (by decide) (by decide) _) h
      obtain ⟨hactivations, h⟩ := append_mark_inj (c := ';') rfl (hactivation _) (hactivation _) h
      obtain ⟨hsolvers, h⟩ := append_mark_inj (c := ';') rfl (hsolver _) (hsolver _) h
      obtain ⟨hrates, hiterations⟩ := append_mark_inj (c := ';') rfl (Binary.semicolon_notMem_text hp)
        (Binary.semicolon_notMem_text hq) h
      rw [sizesText_injective hhidden, Choice.name_injective ofName?_activation hactivations,
        Choice.name_injective ofName?_solver hsolvers, Binary.text_injective hp hq hrates,
        toString_injective hiterations]
    | randomForest | naiveBayes | vectorMachine => cases hfamily
  | naiveBayes smoothing =>
    cases q with
    | naiveBayes smoothing' =>
      have htext : "smoothing=" ++ Scalar.text smoothing = "smoothing=" ++ Scalar.text smoothing' := h
      rw [Binary.text_injective hp hq ((String.append_right_inj _).1 htext)]
    | randomForest | perceptron | vectorMachine => cases hfamily
  | vectorMachine gamma c =>
    cases q with
    | vectorMachine gamma' c' =>
      rw [label_vectorMachine, label_vectorMachine, String.append_right_inj] at h
      obtain ⟨hc, hgamma⟩ := append_mark_inj (c := ';') rfl (Binary.semicolon_notMem_text hp.2)
        (Binary.semicolon_notMem_text hq.2) h
      rw [Binary.text_injective hp.2 hq.2 hc, Gamma.text_injective hp.1 hq.1 hgamma]
    | randomForest | perceptron | naiveBayes => cases hfamily

/-- A coefficient that was spelled with blanks has the label of the trimmed one, since it is that one. -/
theorem label_injective_trimmed :
    let p : Hyperparameters Float := vectorMachine (Gamma.parse " scale ") 10
    let q : Hyperparameters Float := vectorMachine (.named "scale") 10
    p.IsLegible ∧ q.IsLegible ∧ p.label = q.label ∧ p = q := by
  intro p q
  have hparse : Gamma.parse " scale " = .named "scale" := by cbv
  have hnumber : Scalar.isNumber (10 : Float) = true := by decide +kernel
  have hp : p.IsLegible := ⟨hparse ▸ ⟨" scale ", hparse⟩, hnumber⟩
  have hq : q.IsLegible := ⟨⟨" scale ", hparse⟩, hnumber⟩
  have hlabel : p.label = q.label := congrArg (fun gamma => (vectorMachine gamma 10).label) hparse
  exact ⟨hp, hq, hlabel, label_injective hp hq hlabel⟩

end Hyperparameters

end PackageTriage
