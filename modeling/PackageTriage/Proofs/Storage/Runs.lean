import PackageTriage.Artifact.Store
import PackageTriage.Feature.Directory
import PackageTriage.Proofs.Storage.Changes

/-!
# Runs on a disk

What a run answers and the disk that it leaves. Reading leaves the disk as it was, so in a run that reads
first and writes later only the writing has to be followed.
-/

namespace PackageTriage

variable {β γ : Type}

namespace Run

/-- The answer of a run on a disk, and the disk afterwards. -/
def on (c : Run (StateM Disk) β) (d : Disk) : Except Error β × Disk := (ExceptT.run c).run d

@[simp] theorem on_pure (b : β) (d : Disk) : (pure b : Run (StateM Disk) β).on d = (.ok b, d) := rfl

@[simp] theorem on_throw (e : Error) (d : Disk) :
    (throw e : Run (StateM Disk) β).on d = (.error e, d) := rfl

@[simp] theorem on_ofExcept (r : Except Error β) (d : Disk) :
    (ofExcept r : Run (StateM Disk) β).on d = (r, d) := rfl

@[simp] theorem on_ask (q : StateM Disk β) (d : Disk) :
    (ask q).on d = (.ok (q.run d).1, (q.run d).2) := rfl

/-- A run in sequence hands its disk on, and stops at the first error. -/
theorem on_bind (c : Run (StateM Disk) β) (k : β → Run (StateM Disk) γ) (d : Disk) :
    (c >>= k).on d = match c.on d with
      | (.ok b, e) => (k b).on e
      | (.error x, e) => (.error x, e) := by
  show (ExceptT.bind c k).run.run d = _
  simp only [ExceptT.bind, ExceptT.run, ExceptT.mk, on]
  cases h : StateT.run c d with
  | mk r e => cases r <;> simp [ExceptT.bindCont, StateT.run_bind, h] <;> rfl

/-- A run that succeeded went on from what its first part found. -/
theorem on_bind_of_ok {c : Run (StateM Disk) β} {d e : Disk} {b : β} (h : c.on d = (.ok b, e))
    (k : β → Run (StateM Disk) γ) : (c >>= k).on d = (k b).on e := by
  rw [on_bind, h]

theorem on_bind_of_error {c : Run (StateM Disk) β} {d e : Disk} {x : Error} (h : c.on d = (.error x, e))
    (k : β → Run (StateM Disk) γ) : (c >>= k).on d = (.error x, e) := by
  rw [on_bind, h]

/-- A run that succeeded is its first part and what went on from there, and both succeeded. -/
theorem on_bind_eq_ok {c : Run (StateM Disk) β} {k : β → Run (StateM Disk) γ} {d f : Disk} {x : γ}
    (h : (c >>= k).on d = (.ok x, f)) : ∃ b e, c.on d = (.ok b, e) ∧ (k b).on e = (.ok x, f) := by
  rw [on_bind] at h
  cases hc : c.on d with
  | mk outcome e =>
    cases outcome with
    | error y => simp [hc] at h
    | ok b =>
      rw [hc] at h
      exact ⟨b, e, rfl, h⟩

def Reads (c : Run (StateM Disk) β) : Prop := ∀ d, (c.on d).2 = d

theorem reads_pure (b : β) : Reads (pure b : Run (StateM Disk) β) := fun _ => rfl

theorem reads_throw (e : Error) : Reads (throw e : Run (StateM Disk) β) := fun _ => rfl

theorem reads_ofExcept (r : Except Error β) : Reads (ofExcept r : Run (StateM Disk) β) := fun _ => rfl

theorem reads_bind {c : Run (StateM Disk) β} {k : β → Run (StateM Disk) γ} (hc : Reads c)
    (hk : ∀ b, Reads (k b)) : Reads (c >>= k) := by
  intro d
  have hd := hc d
  rw [on_bind]
  cases h : c.on d with
  | mk r e =>
    obtain rfl : e = d := by simpa [h] using hd
    cases r with
    | ok b => exact hk b e
    | error x => rfl

theorem reads_mapM {f : β → Run (StateM Disk) γ} (h : ∀ b, Reads (f b)) (bs : List β) :
    Reads (bs.mapM f) := by
  induction bs with
  | nil => exact reads_pure []
  | cons b bs ih =>
    rw [List.mapM_cons]
    exact reads_bind (h b) fun c => reads_bind ih fun cs => reads_pure (c :: cs)

/-- A run that only reads leaves the disk as it was. -/
theorem on_of_reads {c : Run (StateM Disk) β} (h : Reads c) (d : Disk) : c.on d = ((c.on d).1, d) :=
  Prod.ext rfl (h d)

/-- Reading one thing after the other on a disk is a sequence of attempts. -/
theorem on_mapM {f : β → Run (StateM Disk) γ} (h : ∀ b, Reads (f b)) (bs : List β) (d : Disk) :
    (bs.mapM f).on d = (bs.mapM fun b => ((f b).on d).1, d) := by
  induction bs with
  | nil => rfl
  | cons b bs ih =>
    rw [List.mapM_cons, List.mapM_cons, on_bind, on_of_reads (h b)]
    cases ((f b).on d).1 with
    | error e => rfl
    | ok c =>
      simp only [on_bind, ih]
      cases bs.mapM fun b => ((f b).on d).1 with
      | error e => rfl
      | ok cs => rfl

/-- A question that was answered goes on from its answer. -/
theorem run_bind_of {q : StateM Disk β} {d e : Disk} {b : β} (h : q.run d = (b, e))
    (k : β → StateM Disk γ) : (q >>= k).run d = (k b).run e := by
  rw [StateT.run_bind, h]
  rfl

def Quiet (q : StateM Disk β) : Prop := ∀ d, (q.run d).2 = d

theorem reads_ask {q : StateM Disk β} (h : Quiet q) : Reads (ask q) := h

theorem quiet_pure (b : β) : Quiet (pure b) := fun _ => rfl

theorem quiet_bind {q : StateM Disk β} {k : β → StateM Disk γ} (hq : Quiet q) (hk : ∀ b, Quiet (k b)) :
    Quiet (q >>= k) := by
  intro d
  show ((k (q.run d).1).run (q.run d).2).2 = d
  rw [hk, hq]

theorem reads_isFile (path : String) : Reads (isFile path : Run (StateM Disk) Bool) :=
  reads_bind (reads_ask fun _ => rfl) fun _ => reads_pure _

theorem reads_isDirectory (path : String) : Reads (isDirectory path : Run (StateM Disk) Bool) :=
  reads_bind (reads_ask fun _ => rfl) fun _ => reads_pure _

theorem reads_readBytes (path : String) : Reads (readBytes path : Run (StateM Disk) (List UInt8)) := by
  refine reads_bind (reads_ask fun _ => rfl) fun found => ?_
  cases found with
  | none => exact reads_throw _
  | some bytes => exact reads_pure bytes

theorem reads_readText (path : String) : Reads (readText path : Run (StateM Disk) String) := by
  refine reads_bind (reads_readBytes path) fun bytes => ?_
  cases String.fromUTF8? ⟨bytes.toArray⟩ with
  | none => exact reads_throw _
  | some text => exact reads_pure text

end Run

open Run

theorem Walk.quiet_inOrder {walk : String → StateM Disk Walk} (h : ∀ path, Quiet (walk path))
    (paths : List String) (w : Walk) : Quiet (inOrder walk paths w) := by
  induction paths generalizing w with
  | nil => exact quiet_pure w
  | cons path paths ih =>
    refine quiet_bind ?_ ih
    rw [andThen]
    split
    · exact quiet_pure w
    · exact quiet_bind (h path) fun _ => quiet_pure _

theorem Walk.quiet_below (fuel : Nat) (above : List String) (path : String) :
    Quiet (below fuel above path : StateM Disk Walk) := by
  induction fuel generalizing above path with
  | zero => exact quiet_pure broke
  | succ fuel ih =>
    refine quiet_bind (fun _ => rfl) fun kind => ?_
    cases kind with
    | none => exact quiet_pure broke
    | some kind =>
      cases kind with
      | file => exact quiet_pure _
      | other => exact quiet_pure _
      | directory =>
        refine quiet_bind (fun _ => rfl) fun here => ?_
        cases here with
        | none => exact quiet_pure broke
        | some here =>
          refine quiet_bind (fun _ => rfl) fun link => ?_
          split
          · exact quiet_pure broke
          · refine quiet_bind (fun _ => rfl) fun names => ?_
            cases names with
            | none => exact quiet_pure broke
            | some names => exact quiet_inOrder (fun path => ih (here :: above) path) _ _

namespace Walk

variable {fuel : Nat} {above : List String} {d : Disk}

theorem run_below_file {path : String} (h : d.kind? path = some .file) :
    (below (fuel + 1) above path : StateM Disk Walk).run d = (⟨[path], false⟩, d) := by
  have hkind : (FileSystem.kind path : StateM Disk (Option FileKind)).run d = (some .file, d) := congrArg (·, d) h
  rw [below, StateT.run_bind, hkind]
  rfl

/-- Files one after the other are met one after the other. -/
theorem run_inOrder_files {paths : List String} (h : ∀ path ∈ paths, d.kind? path = some .file) {w : Walk}
    (hw : w.broken = false) :
    (inOrder (below (fuel + 1) above) paths w : StateM Disk Walk).run d = (⟨w.files ++ paths, false⟩, d) := by
  induction paths generalizing w with
  | nil =>
    obtain ⟨files, broken⟩ := w
    obtain rfl : broken = false := hw
    rw [List.append_nil]
    rfl
  | cons path paths ih =>
    obtain ⟨hpath, hpaths⟩ := List.forall_mem_cons.1 h
    have hone : (w.andThen (below (fuel + 1) above path) : StateM Disk Walk).run d =
        (⟨w.files ++ [path], false⟩, d) := by
      rw [andThen, hw, if_neg Bool.false_ne_true, StateT.run_bind, run_below_file hpath]
      rfl
    rw [inOrder, StateT.run_bind, hone]
    show (inOrder (below (fuel + 1) above) paths ⟨w.files ++ [path], false⟩ : StateM Disk Walk).run d = _
    rw [ih hpaths rfl, List.append_assoc, List.singleton_append]

/-- A directory is walked through in the order of its names. -/
theorem run_below_directory {directory here : String} {names : List String}
    (hkind : d.kind? directory = some .directory) (hhere : d.identity? directory = some here)
    (hnames : d.names? directory = some names) (hfresh : above.contains here = false) :
    (below (fuel + 1) above directory : StateM Disk Walk).run d =
      (inOrder (below fuel (here :: above)) ((sortNames names).map (Path.join directory)) empty :
        StateM Disk Walk).run d := by
  have hask : (FileSystem.kind directory : StateM Disk (Option FileKind)).run d = (some .directory, d) :=
    congrArg (·, d) hkind
  have hidentity : (FileSystem.identity directory : StateM Disk (Option String)).run d = (some here, d) :=
    congrArg (·, d) hhere
  have hlist : (FileSystem.names directory : StateM Disk (Option (List String))).run d = (some names, d) :=
    congrArg (·, d) hnames
  have hlink : (FileSystem.isLink directory : StateM Disk Bool).run d = (d.isLink directory, d) := rfl
  rw [below, run_bind_of hask]
  dsimp only
  rw [run_bind_of hidentity]
  dsimp only
  rw [run_bind_of hlink, hfresh, Bool.false_and, if_neg Bool.false_ne_true, run_bind_of hlist]

end Walk

def Disk.walk (d : Disk) (directory : String) : Walk := ((Walk.of directory : StateM Disk Walk).run d).1

/-- A directory with nothing but files is walked through in the order of their names. -/
theorem Disk.walk_flat {d : Disk} {directory : String} (here : String) (names : List String)
    (hkind : d.kind? directory = some .directory) (hhere : d.identity? directory = some here)
    (hnames : d.names? directory = some names)
    (hfiles : ∀ name ∈ names, d.kind? (Path.join directory name) = some .file) :
    d.walk directory = ⟨(Walk.sortNames names).map (Path.join directory), false⟩ := by
  have hsorted : ∀ path ∈ (Walk.sortNames names).map (Path.join directory), d.kind? path = some .file := by
    intro path hpath
    obtain ⟨name, hname, rfl⟩ := List.mem_map.1 hpath
    exact hfiles name (by simpa [Walk.sortNames] using hname)
  show ((Walk.below (4095 + 1) [] directory : StateM Disk Walk).run d).1 = _
  rw [Walk.run_below_directory hkind hhere hnames rfl, Walk.run_inOrder_files hsorted rfl]
  rfl

theorem Run.reads_forFiles {visit : String → Run (StateM Disk) β} (h : ∀ path, Reads (visit path))
    (directory : String) : Reads (forFiles directory visit) := by
  refine reads_bind (reads_ask (Walk.quiet_below _ _ _)) fun walk => ?_
  refine reads_bind (reads_mapM h _) fun visited => ?_
  cases walk.broken with
  | true => exact reads_bind (reads_throw _) fun _ => reads_pure visited
  | false => exact reads_pure visited

/-- What is done for the files below a directory is done for those that the walk meets, in its order. -/
theorem Run.on_forFiles {visit : String → Run (StateM Disk) β} (h : ∀ path, Reads (visit path))
    (directory : String) (d : Disk) :
    (forFiles directory visit).on d =
      (do
        let visited ← (d.walk directory).files.mapM fun path => ((visit path).on d).1
        if (d.walk directory).broken then .error .storage else .ok visited, d) := by
  have hwalk : (ask (Walk.of directory) : Run (StateM Disk) Walk).on d = (.ok (d.walk directory), d) := by
    rw [on_ask]
    exact Prod.ext rfl (Walk.quiet_below _ _ _ d)
  rw [forFiles, on_bind_of_ok hwalk, on_bind, on_mapM h]
  cases (d.walk directory).files.mapM fun path => ((visit path).on d).1 with
  | error e => rfl
  | ok visited => cases (d.walk directory).broken <;> rfl

theorem FeatureFile.reads_read (path : String) :
    Reads (FeatureFile.read path : Run (StateM Disk) (List FeatureValue)) := by
  have hparse : Reads (do Run.ofExcept (parse path (← readText path).toList) :
      Run (StateM Disk) (List FeatureValue)) :=
    reads_bind (reads_readText path) fun text => reads_ofExcept _
  refine reads_bind (reads_isFile path) fun found => ?_
  cases found with
  | true => exact hparse
  | false => exact reads_bind (reads_throw _) fun _ => hparse

theorem Dataset.reads_readDirectory (label : Label) (directory : String) :
    Reads (Dataset.readDirectory label directory : Run (StateM Disk) (List Sample)) := by
  have hfiles : Reads (Run.forFiles directory (Sample.read label) : Run (StateM Disk) (List Sample)) :=
    reads_forFiles (fun path => reads_bind (FeatureFile.reads_read path) fun _ => reads_pure _) directory
  refine reads_bind (reads_isDirectory directory) fun found => ?_
  cases found with
  | true => exact hfiles
  | false => exact reads_bind (reads_throw _) fun _ => hfiles

/-- Reading a data set leaves the disk as it is. -/
theorem Dataset.reads_read (malicious benign : List String) :
    Reads (Dataset.read malicious benign : Run (StateM Disk) (List Sample)) := by
  refine reads_bind (reads_mapM (reads_readDirectory .malicious) _) fun bad => ?_
  exact reads_bind (reads_mapM (reads_readDirectory .benign) _) fun good => reads_pure _

end PackageTriage
