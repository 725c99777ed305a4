import PackageTriage.Proofs.Bytes.Fitted
import PackageTriage.Proofs.Prediction.Loading
import PackageTriage.Proofs.Training.Success

/-!
# Histories of training runs

Runs follow one another, on whatever data there is at the time, and each may fail. The slots of a store
that began empty hold what was stored last: the model slot the model of the last run that saved one, the
scaler slot the scaler of the last run that fitted one, be it by validating or by a save that failed later.
-/

namespace PackageTriage

open Run

/-- A training run with the disk that it finds. -/
structure Event where
  request : TrainRequest
  grids : Grids Float
  found : Disk

def Event.left (dirs : Directories) (e : Event) : Disk := ((e.request.run dirs e.grids).on e.found).2

/-- What others do between two runs: they may change data, but neither links nor slots. -/
structure Elsewhere (dirs : Directories) (d e : Disk) : Prop where
  wellFormed : e.WellFormed
  sameLinks : d.SameLinks e
  slots_eq : ∀ s : Slot, e.holds? (s.path dirs.models) = d.holds? (s.path dirs.models)

/-- The runs since a first disk, and the disk after them. -/
inductive History (dirs : Directories) (first : Disk) : List Event → Disk → Prop where
  | start : History dirs first [] first
  | run {es : List Event} (e : Event) (h : History dirs first es e.found) :
      History dirs first (es ++ [e]) (e.left dirs)
  | elsewhere {es : List Event} {d e : Disk} (h : History dirs first es d) (hde : Elsewhere dirs d e) :
      History dirs first es e

structure Fresh (dirs : Directories) (d : Disk) : Prop where
  wellFormed : d.WellFormed
  /-- The directory of models is empty, or not there. -/
  empty : ∀ p, d.aim? dirs.models = some p → ∀ name, d.at? (p ++ [name]) = none
  /-- No report is written into a slot. -/
  reports : ∀ (f : Family) (s : Slot) (p : Place),
    d.aim? (TrainRequest.reportPath dirs.results f) = some p → d.aim? (s.path dirs.models) ≠ some p

namespace Fresh

variable {dirs : Directories} {d : Disk}

theorem aim?_slot (h : Fresh dirs d) (s : Slot) :
    d.aim? (s.path dirs.models) = (d.aim? dirs.models).map (· ++ [s.name]) := by
  apply Disk.aim?_join s.isName_name
  intro p hp
  rw [Disk.linkAt?, h.empty p hp]

theorem apart (h : Fresh dirs d) : Slot.Apart dirs d := by
  refine ⟨fun s t hst p => ?_, h.reports⟩
  rw [h.aim?_slot, h.aim?_slot]
  cases d.aim? dirs.models with
  | none => simp
  | some q =>
    intro hs ht
    obtain rfl := Option.some.inj hs
    have hname : t.name = s.name := by simpa using ht
    exact hst (Slot.name_injective hname.symm)

/-- A fresh disk holds nothing in any slot. -/
theorem holds?_slot (h : Fresh dirs d) (s : Slot) : d.holds? (s.path dirs.models) = none := by
  rw [Disk.holds?, h.aim?_slot]
  cases hp : d.aim? dirs.models with
  | none => rfl
  | some p => simp [Disk.fileAt?, h.empty p hp]

end Fresh

namespace Event

variable (dirs : Directories) (f : Family) (e : Event)

def model? : Option (Artifact Float) :=
  if f = e.request.family then e.request.modelStored? dirs e.grids e.found else none

def scaler? : Option (Scaler Float) :=
  if f = e.request.family then e.request.scalerStored? dirs e.found else none

def stores? (s : Slot) : Option (List UInt8) := e.request.stores? dirs e.grids e.found s

theorem stores?_model : e.stores? dirs (.model f) = (e.model? dirs f).map Layout.write := by
  rw [stores?, TrainRequest.stores?, model?]
  split <;> rfl

theorem stores?_scaler : e.stores? dirs (.scaler f) = (e.scaler? dirs f).map Layout.write := by
  rw [stores?, TrainRequest.stores?, scaler?]
  split <;> rfl

end Event

/-- What some events put into a slot last. -/
def lastStored (dirs : Directories) (es : List Event) (s : Slot) : Option (List UInt8) :=
  es.reverse.findSome? fun e => e.stores? dirs s

namespace History

variable {dirs : Directories} {first d : Disk} {es : List Event}

/-- Every slot holds what was stored in it last. -/
theorem holds?_eq (hfresh : Fresh dirs first) (h : History dirs first es d) :
    d.WellFormed ∧ first.SameLinks d ∧
      ∀ s : Slot, d.holds? (s.path dirs.models) = lastStored dirs es s := by
  induction h with
  | start => exact ⟨hfresh.wellFormed, .refl first, hfresh.holds?_slot⟩
  | run e h ih =>
    obtain ⟨hwellFormed, hlinks, hslots⟩ := ih
    have hapart := hfresh.apart.of_sameLinks hlinks
    obtain ⟨hleft, hgrows, hholds⟩ := e.request.holds?_run hwellFormed e.grids hapart
    refine ⟨hleft, hlinks.trans hgrows.toSameLinks, fun s => ?_⟩
    rw [Event.left, hholds s, hslots s, lastStored, lastStored, List.reverse_append,
      List.reverse_singleton, List.singleton_append, List.findSome?_cons, Event.stores?]
    cases e.request.stores? dirs e.grids e.found s <;> rfl
  | elsewhere h hde ih =>
    obtain ⟨-, hlinks, hslots⟩ := ih
    exact ⟨hde.wellFormed, hlinks.trans hde.sameLinks, fun s => (hde.slots_eq s).trans (hslots s)⟩

end History

structure Event.Fits (dirs : Directories) (e : Event) : Prop where
  model : ∀ f a, e.model? dirs f = some a → a.Fits
  scaler : ∀ f s, e.scaler? dirs f = some s → LawfulLayout.Fits s

/-- A run that saved a model for scaled features stored the scaler it fitted too. -/
theorem Event.exists_scaler {dirs : Directories} {f : Family} {e : Event} {a : Artifact Float}
    (h : e.model? dirs f = some a) :
    a.method = .raw ∧ e.scaler? dirs f = none ∨
      a.method ≠ .raw ∧ ∃ s, e.scaler? dirs f = some s ∧ s.method = a.method := by
  rw [model?] at h
  split at h
  · next hf =>
    obtain ⟨written, d, p, settings, k, hrun, hp, hchosen, hfit, rfl, hscaler⟩ :=
      TrainRequest.modelStored?_eq_some h
    obtain ⟨x, -, -, hpreprocess⟩ := TrainRequest.prepared_eq_ok hp
    rw [scaler?, if_pos hf, hscaler]
    rcases Method.preprocess_eq_ok hpreprocess with ⟨hraw, -, hnone⟩ | ⟨hraw, s, hs, hmethod, -⟩
    · exact .inl ⟨hraw, hnone⟩
    · exact .inr ⟨hraw, s, hs, hmethod⟩
  · contradiction

/-- The last thing that was found stands behind what comes before and before what comes after it. -/
theorem exists_last {β : Type} {find : Event → Option β} {es : List Event} {b : β}
    (h : es.reverse.findSome? find = some b) :
    ∃ earlier e later, es = earlier ++ e :: later ∧ find e = some b ∧ ∀ e ∈ later, find e = none := by
  obtain ⟨later, e, earlier, hes, he, hlater⟩ := List.findSome?_eq_some_iff.1 h
  refine ⟨earlier.reverse, e, later.reverse, ?_, he, fun e' he' => hlater e' (List.mem_reverse.1 he')⟩
  rw [← List.reverse_reverse es, hes]
  simp

namespace History

variable {dirs : Directories} {first d : Disk} {es : List Event} {f : Family}

/-- The last thing stored is the last that any run of the history stored there. -/
theorem lastStored_eq_map {γ : Type} [Layout γ] {find : Event → Option γ} {s : Slot}
    (hfind : ∀ e, e.stores? dirs s = (find e).map Layout.write) :
    lastStored dirs es s = (es.reverse.findSome? find).map Layout.write := by
  rw [lastStored, List.map_findSome?]
  exact congrArg (es.reverse.findSome? ·) (funext hfind)

/-- The last scaler before the end is one of the later runs, or else that of the run itself. -/
theorem findSome?_run {β : Type} {find : Event → Option β} {earlier later : List Event} {e : Event}
    {b c : β} (he : find e = some b) (h : (earlier ++ e :: later).reverse.findSome? find = some c) :
    c = (later.reverse.findSome? find).getD b := by
  rw [List.reverse_append, List.reverse_cons, List.append_assoc, List.findSome?_append,
    List.singleton_append, List.findSome?_cons, he] at h
  cases hlater : later.reverse.findSome? find with
  | some b' =>
    rw [hlater] at h
    exact (Option.some.inj h).symm
  | none =>
    rw [hlater] at h
    exact (Option.some.inj h).symm

/-- A predictor that is loaded has the model of the last run that saved one. Its scaler is none if that run
left the features as they are. Otherwise it is of the method of that run, and it is the scaler of the last
later run of the family that fitted one, or, if there is no such run, the model's own. -/
theorem loaded_pair {p : Predictor} {e : Disk} (hfresh : Fresh dirs first) (h : History dirs first es d)
    (hfits : ∀ e ∈ es, e.Fits dirs) (hf : f.appliesScaler = true)
    (hload : (Predictor.load dirs.models f).on d = (.ok p, e)) :
    ∃ earlier run later a, es = earlier ++ run :: later ∧ run.model? dirs f = some a ∧
      (∀ e ∈ later, e.model? dirs f = none) ∧ p.artifact = a.restored ∧
      (a.method = .raw → p.scaler = none) ∧
      (a.method ≠ .raw → ∃ own s, run.scaler? dirs f = some own ∧ own.method = a.method ∧
        p.scaler = some s ∧ s.method = a.method ∧
        s = (later.reverse.findSome? (Event.scaler? dirs f)).getD own) := by
  obtain ⟨-, -, hslots⟩ := h.holds?_eq hfresh
  obtain ⟨-, ⟨bytes, hbytes, hdecode, hof⟩, hscaler⟩ := Predictor.load_eq_ok hload
  have hmodel : (es.reverse.findSome? (Event.model? dirs f)).map Layout.write = some bytes := by
    rw [← lastStored_eq_map (Event.stores?_model dirs f), ← hslots]
    exact Disk.holds?_of_bytes? hbytes
  obtain ⟨a, ha, rfl⟩ := Option.map_eq_some_iff.1 hmodel
  obtain ⟨earlier, run, later, hes, hrun, hlater⟩ := exists_last ha
  have hartifact : p.artifact = a.restored := by
    have hfit := (hfits run (by simp [hes])).model f a hrun
    simpa [Artifact.decode_write hfit] using hdecode.symm
  have hscaled : Predictor.isScaled p.artifact = decide (a.method ≠ .raw) := by
    have hfamily : p.artifact.family = f := by
      rw [Store.isOf, Bool.and_eq_true, decide_eq_true_iff] at hof
      exact hof.1
    rw [Predictor.isScaled, hfamily, hf, Bool.true_and, hartifact]
    rfl
  refine ⟨earlier, run, later, a, hes, hrun, hlater, hartifact, fun hraw => ?_, fun hraw => ?_⟩
  · rcases hscaler with ⟨-, hnone⟩ | ⟨hyes, -⟩
    · exact hnone
    · simp [hscaled, hraw] at hyes
  · rcases hscaler with ⟨hno, -⟩ | ⟨-, found, s, hfound, hs, hps, hmethod⟩
    · simp [hscaled, hraw] at hno
    rcases Event.exists_scaler hrun with ⟨hraw', -⟩ | ⟨-, own, hown, hownMethod⟩
    · exact absurd hraw' hraw
    have hlast : (es.reverse.findSome? (Event.scaler? dirs f)).map Layout.write = some found := by
      rw [← lastStored_eq_map (Event.stores?_scaler dirs f), ← hslots]
      exact Disk.holds?_of_bytes? hfound
    obtain ⟨c, hc, rfl⟩ := Option.map_eq_some_iff.1 hlast
    obtain ⟨before, run', after, hes', hrun', -⟩ := exists_last hc
    obtain rfl : c = s := by
      have hfit := (hfits run' (by simp [hes'])).scaler f c hrun'
      simpa [LawfulLayout.decode_write hfit] using hs
    refine ⟨own, c, hown, hownMethod, hps, ?_, ?_⟩
    · rw [hmethod, hartifact]
      rfl
    · rw [hes] at hc
      exact findSome?_run hown hc

end History

/-- Two directories with one package each, which differ in their only feature. -/
def Disk.twoPackages : Disk where
  entries := [(["home"], .directory),
    (["home", "a"], .directory), (["home", "a", "p"], .file "f,true".toUTF8.toList),
    (["home", "b"], .directory), (["home", "b", "q"], .file "f,false".toUTF8.toList)]
  home := ["home"]

def Event.saved : Event where
  request := ⟨["a"], ["b"], .minMax, .naiveBayes, .save,
    { (Selection.none : Selection Float) with smoothing := some 1 }⟩
  grids := default
  found := .twoPackages

def Event.swept : Event where
  request := ⟨["a", "a", "a", "a"], [], .minMax, .naiveBayes, .validate, default⟩
  grids := default
  found := Event.saved.left default

theorem fresh_twoPackages : Fresh default .twoPackages where
  wellFormed := Disk.wellFormed_of_entries rfl (by decide +kernel)
  empty := by
    intro p hp name
    have hplace : Disk.twoPackages.aim? "models" = some ["home", "models"] := by decide +kernel
    obtain rfl := Option.some.inj (hplace.symm.trans hp)
    rfl
  reports := by
    intro f s p hreport hslot
    have hresults : (Disk.twoPackages.aim? (TrainRequest.reportPath (default : Directories).results f)).map
        List.dropLast = some ["home", "results"] := by
      cases f <;> decide +kernel
    have hmodels : (Disk.twoPackages.aim? (s.path (default : Directories).models)).map List.dropLast =
        some ["home", "models"] := by
      rcases s with g | g <;> cases g <;> decide +kernel
    rw [hreport, Option.map_some] at hresults
    rw [hslot, Option.map_some, hresults] at hmodels
    simp at hmodels

theorem history_swept : History default .twoPackages [.saved, .swept] (Event.swept.left default) :=
  .run .swept (.run .saved .start)

theorem model?_swept (f : Family) : Event.swept.model? default f = none := by
  rw [Event.model?, TrainRequest.modelStored?_of_validate rfl, ite_self]

theorem fits_saved : Event.saved.Fits default where
  model f a h := by
    rw [Event.model?] at h
    split at h
    · obtain ⟨-, -, p, settings, k, -, hp, hchosen, hfit, rfl, -⟩ := TrainRequest.modelStored?_eq_some h
      obtain ⟨-, hsettings, -⟩ := TrainRequest.prepared_eq_ok hp
      obtain rfl : Hyperparameters.naiveBayes 1 = settings := by
        have hsome := Except.ok.inj hsettings
        exact Option.some.inj (hsome.trans hchosen)
      have hsize : (Event.saved.request.prepared .twoPackages).toOption.map
          (fun p => (p.labels.length, p.features.width)) = some (2, 1) := by decide +kernel
      obtain ⟨hlength, hwidth⟩ : p.labels.length = 2 ∧ p.features.width = 1 := by
        have hp' : Event.saved.request.prepared .twoPackages = .ok p := hp
        simpa [hp', Except.toOption] using hsize
      have hlabel : LawfulLayout.Fits (Hyperparameters.naiveBayes (1 : Float)).label := by decide +kernel
      refine ⟨hlabel, ?_⟩
      cases (Classifier.fittedBy_of_fit hfit).2 with
      | naiveBayes _ hb => exact NaiveBayes.fits_of_fit hb (by omega) (by omega)
      | _ => contradiction
    · contradiction
  scaler f := by cases f <;> decide +kernel

theorem fits_swept : Event.swept.Fits default where
  model f a h := by simp [model?_swept] at h
  scaler f := by cases f <;> decide +kernel

theorem fits_both : ∀ e ∈ [Event.saved, .swept], e.Fits default := by
  intro e he
  simp only [List.mem_cons, List.not_mem_nil, or_false] at he
  rcases he with rfl | rfl
  · exact fits_saved
  · exact fits_swept

/-- The model that is loaded then is that of the first run, and the scaler that of the second. -/
theorem exists_load_swept : ∃ p, (Predictor.load "models" .naiveBayes).on (Event.swept.left default) =
    (.ok p, Event.swept.left default) ∧ p.scaler.map Scaler.center = some [1] := by
  obtain ⟨hwellFormed, hlinks, -⟩ := (History.run .saved .start).holds?_eq fresh_twoPackages
  obtain ⟨-, -, hslots⟩ := history_swept.holds?_eq fresh_twoPackages
  have hapart := fresh_twoPackages.apart.of_sameLinks hlinks
  have hgrows : (Event.saved.left default).Grows (Event.swept.left default) :=
    (Event.swept.request.holds?_run hwellFormed default hapart).2.1
  have hlast : ∀ {β : Type} (find : Event → Option β),
      [Event.saved, Event.swept].reverse.findSome? find = (find .swept).or (find .saved) := by
    intro β find
    cases hswept : find .swept <;> cases hsaved : find .saved <;> simp [hswept, hsaved]
  obtain ⟨a, ha⟩ : ∃ a, Event.saved.model? default .naiveBayes = some a :=
    Option.isSome_iff_exists.1 (by decide +kernel)
  obtain ⟨s, hs⟩ : ∃ s, Event.swept.scaler? default .naiveBayes = some s :=
    Option.isSome_iff_exists.1 (by decide +kernel)
  have hmodel : (Event.swept.left default).bytes? (Store.modelPath "models" .naiveBayes) =
      some (Layout.write a) := by
    rw [hgrows.bytes?_eq_holds? (by decide +kernel)]
    refine (hslots (.model .naiveBayes)).trans ?_
    rw [History.lastStored_eq_map (Event.stores?_model default .naiveBayes), hlast, model?_swept, ha]
    rfl
  have hscaler : (Event.swept.left default).bytes? (Store.scalerPath "models" .naiveBayes) =
      some (Layout.write s) := by
    rw [hgrows.bytes?_eq_holds? (by decide +kernel)]
    refine (hslots (.scaler .naiveBayes)).trans ?_
    rw [History.lastStored_eq_map (Event.stores?_scaler default .naiveBayes), hlast, hs]
    rfl
  have hof : (Event.saved.model? default .naiveBayes).map
      (fun a => (Store.isOf .naiveBayes a, Predictor.isScaled a, a.method)) =
        some (true, true, .minMax) := by
    decide +kernel
  have hcenter : (Event.swept.scaler? default .naiveBayes).map (fun s => (s.method, s.center)) =
      some (.minMax, [1]) := by
    decide +kernel
  simp only [ha, hs, Option.map_some, Option.some.injEq, Prod.mk.injEq] at hof hcenter
  obtain ⟨hof, hscaled, hmethod⟩ := hof
  have hload := Predictor.load_scaled hmodel (fits_saved.model _ a ha) hof hscaled hscaler
    (fits_swept.scaler _ s hs) (hcenter.1.trans hmethod.symm)
  exact ⟨_, hload, congrArg some hcenter.2⟩

theorem loaded_pair_swept : Fresh default .twoPackages ∧
    History default .twoPackages [.saved, .swept] (Event.swept.left default) ∧
    (∀ e ∈ [Event.saved, .swept], e.Fits default) ∧ Family.naiveBayes.appliesScaler = true ∧
    ∃ p, (Predictor.load "models" .naiveBayes).on (Event.swept.left default) =
        (.ok p, Event.swept.left default) ∧
      ∃ earlier run later a, [Event.saved, .swept] = earlier ++ run :: later ∧
        run.model? default .naiveBayes = some a ∧ (∀ e ∈ later, e.model? default .naiveBayes = none) ∧
        p.artifact = a.restored ∧ (a.method = .raw → p.scaler = none) ∧
        (a.method ≠ .raw → ∃ own s, run.scaler? default .naiveBayes = some own ∧ own.method = a.method ∧
          p.scaler = some s ∧ s.method = a.method ∧
          s = (later.reverse.findSome? (Event.scaler? default .naiveBayes)).getD own) := by
  obtain ⟨p, hload, -⟩ := exists_load_swept
  refine ⟨fresh_twoPackages, history_swept, fits_both, rfl, p, hload, ?_⟩
  exact History.loaded_pair fresh_twoPackages history_swept fits_both rfl hload

/-- So a model need not be loaded with the scaler that its own run fitted. -/
theorem not_own_scaler : ¬ ∀ (dirs : Directories) (first d e : Disk) (es : List Event) (f : Family)
    (p : Predictor), Fresh dirs first → History dirs first es d → (∀ e ∈ es, e.Fits dirs) →
    f.appliesScaler = true → (Predictor.load dirs.models f).on d = (.ok p, e) →
    ∃ earlier run later a, es = earlier ++ run :: later ∧ run.model? dirs f = some a ∧
      (∀ e ∈ later, e.model? dirs f = none) ∧ p.artifact = a.restored ∧ p.scaler = run.scaler? dirs f := by
  intro hall
  obtain ⟨p, hload, hcenter⟩ := exists_load_swept
  obtain ⟨earlier, run, later, a, hes, hrun, -, -, hscaler⟩ :=
    hall default .twoPackages _ _ _ .naiveBayes p fresh_twoPackages history_swept fits_both rfl hload
  have hmem : run ∈ [Event.saved, .swept] := by simp [hes]
  simp only [List.mem_cons, List.not_mem_nil, or_false] at hmem
  rcases hmem with rfl | rfl
  · rw [hscaler] at hcenter
    revert hcenter
    decide +kernel
  · simp [model?_swept] at hrun

end PackageTriage
