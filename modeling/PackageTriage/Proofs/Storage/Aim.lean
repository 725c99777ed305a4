import PackageTriage.Storage.Disk

/-!
# Where paths lead

A path leads to a place by its names and the links on the way. Whether the directories on the way are
there decides if the place can be asked for, but not where it is. So as long as no link changes, a path
keeps leading to the same place.
-/

namespace PackageTriage

namespace Path

/-- A name that leads somewhere, is not the way up and has no slash in it. -/
structure IsName (name : String) : Prop where
  leads : leads name = true
  not_up : name ≠ ".."
  no_slash : '/' ∉ name.toList

theorem IsName.steps_eq {name : String} (h : IsName name) : steps name = [name] := by
  simp [steps, pieces, List.splitOn_eq_singleton h.no_slash, h.leads]

theorem IsName.isAbsolute_eq {name : String} (h : IsName name) : isAbsolute name = false := by
  rw [isAbsolute, decide_eq_false_iff_not]
  intro hhead
  exact h.no_slash (List.mem_of_mem_head? (Option.mem_def.2 hhead))

theorem pieces_append_slash (path name : String) :
    pieces (path ++ "/" ++ name) = pieces path ++ pieces name := by
  have hlist : (path ++ "/" ++ name).toList = path.toList ++ '/' :: name.toList := by simp
  rw [pieces, hlist, List.splitOn_append_cons_self, List.map_append, pieces, pieces]

/-- A directory that is written with a slash at its end. -/
theorem exists_of_getLast?_slash {path : String} (h : path.toList.getLast? = some '/') :
    ∃ front : String, path = front ++ "/" := by
  obtain ⟨front, hfront⟩ := List.getLast?_eq_some_iff.1 h
  refine ⟨String.ofList front, String.toList_injective ?_⟩
  rw [hfront, String.toList_append, String.toList_ofList]
  rfl

/-- The steps to a name in a directory. -/
theorem steps_join (path : String) {name : String} (h : IsName name) :
    steps (join path name) = steps path ++ [name] := by
  rw [join, h.isAbsolute_eq, Bool.false_or]
  by_cases hempty : path.isEmpty
  · obtain rfl : path = "" := by simpa using hempty
    rw [if_pos hempty, h.steps_eq]
    rfl
  · rw [if_neg hempty]
    by_cases hslash : path.toList.getLast? = some '/'
    · obtain ⟨front, rfl⟩ := exists_of_getLast?_slash hslash
      have hfront : steps (front ++ "/") = steps front := by
        have hpieces : pieces (front ++ "/") = pieces front ++ pieces "" := by
          simpa using pieces_append_slash front ""
        rw [steps, hpieces, List.filter_append]
        exact List.append_nil _
      rw [if_pos hslash, hfront, steps, pieces_append_slash, List.filter_append]
      exact congrArg (steps front ++ ·) h.steps_eq
    · rw [if_neg hslash, steps, pieces_append_slash, List.filter_append]
      exact congrArg (steps path ++ ·) h.steps_eq

theorem isAbsolute_join (path : String) {name : String} (h : IsName name) :
    isAbsolute (join path name) = isAbsolute path := by
  rw [join, h.isAbsolute_eq, Bool.false_or]
  by_cases hempty : path.isEmpty
  · obtain rfl : path = "" := by simpa using hempty
    rw [if_pos hempty, h.isAbsolute_eq]
    rfl
  · have hne : path.toList ≠ [] := by simpa using hempty
    obtain ⟨c, cs, hcs⟩ := List.exists_cons_of_ne_nil hne
    rw [if_neg hempty]
    by_cases hslash : path.toList.getLast? = some '/'
    · rw [if_pos hslash]
      simp [isAbsolute, hcs]
    · rw [if_neg hslash]
      simp [isAbsolute, hcs]

end Path

namespace Disk

def linkAt? (d : Disk) (p : Place) : Option String :=
  match d.at? p with
  | some (.link target) => some target
  | _ => none

/-- Where steps lead from a place, with `jump` going on behind a link. -/
def aimDown (d : Disk) (jump : Place → List String → Option Place) : Place → List String → Option Place
  | p, [] => some p
  | p, step :: steps =>
    if step = ".." then aimDown d jump p.dropLast steps
    else
      match d.linkAt? (p ++ [step]) with
      | some target =>
        if target.isEmpty then none
        else jump (if Path.isAbsolute target then [] else p) (Path.steps target ++ steps)
      | none => aimDown d jump (p ++ [step]) steps

/-- Where steps lead through at most so many links. -/
def aimFrom (d : Disk) : (links : Nat) → Place → List String → Option Place
  | 0 => aimDown d fun _ _ => none
  | links + 1 => aimDown d (d.aimFrom links)

/-- The place that a path leads to, by names and links alone. -/
def aim? (d : Disk) (path : String) : Option Place :=
  d.aimFrom maxLinks (if Path.isAbsolute path then [] else d.home) (Path.steps path)

/-- One step down from a directory. -/
theorem descend_step {d : Disk} {follow : Bool} {jump : Place → List String → Option Place} {p : Place}
    {piece : String} {pieces : List String} (hdirectory : d.at? p = some .directory)
    (hleads : Path.leads piece = true) (hup : piece ≠ "..") :
    d.descend follow jump p (piece :: pieces) =
      match d.linkAt? (p ++ [piece]) with
      | some target =>
        if pieces.isEmpty && !follow then some (p ++ [piece])
        else if target.isEmpty then none
        else jump (if Path.isAbsolute target then [] else p) (Path.pieces target ++ pieces)
      | none => d.descend follow jump (p ++ [piece]) pieces := by
  rw [descend, if_neg (not_not_intro hdirectory), if_neg (by simp [hleads]), if_neg hup, linkAt?]
  cases hentry : d.at? (p ++ [piece]) with
  | none => rfl
  | some entry => cases entry <;> rfl

/-- Nothing lies below what is no directory. -/
theorem descend_not_directory {d : Disk} {follow : Bool} {jump : Place → List String → Option Place}
    {p : Place} {piece : String} {pieces : List String} (h : d.at? p ≠ some .directory) :
    d.descend follow jump p (piece :: pieces) = none := by
  rw [descend, if_pos h]

theorem descend_skip {d : Disk} {follow : Bool} {jump : Place → List String → Option Place} {p : Place}
    {piece : String} {pieces : List String} (hdirectory : d.at? p = some .directory)
    (hleads : Path.leads piece = false) :
    d.descend follow jump p (piece :: pieces) = d.descend follow jump p pieces := by
  rw [descend, if_neg (not_not_intro hdirectory), if_pos (by simp [hleads])]

/-- A step upwards leads to the directory above. -/
theorem descend_up {d : Disk} {follow : Bool} {jump : Place → List String → Option Place} {p : Place}
    {pieces : List String} (hdirectory : d.at? p = some .directory) :
    d.descend follow jump p (".." :: pieces) = d.descend follow jump p.dropLast pieces := by
  rw [descend, if_neg (not_not_intro hdirectory), if_neg (by decide), if_pos rfl]

/-- What is found by going through directories is where the path leads. -/
theorem aimDown_of_descend {d : Disk} {jump jump' : Place → List String → Option Place}
    (hjump : ∀ p pieces q, jump p pieces = some q → jump' p (pieces.filter Path.leads) = some q)
    {p q : Place} {pieces : List String} (h : d.descend true jump p pieces = some q) :
    d.aimDown jump' p (pieces.filter Path.leads) = some q := by
  induction pieces generalizing p with
  | nil => exact h
  | cons piece pieces ih =>
    by_cases hdirectory : d.at? p = some .directory
    · cases hleads : Path.leads piece with
      | false =>
        rw [descend_skip hdirectory hleads] at h
        rw [List.filter_cons_of_neg (by simp [hleads])]
        exact ih h
      | true =>
        rw [List.filter_cons_of_pos hleads, aimDown]
        by_cases hup : piece = ".."
        · rw [hup, descend_up hdirectory] at h
          rw [if_pos hup]
          exact ih h
        · rw [descend_step hdirectory hleads hup] at h
          rw [if_neg hup]
          cases hlink : d.linkAt? (p ++ [piece]) with
          | none =>
            rw [hlink] at h
            exact ih h
          | some target =>
            by_cases htarget : target.isEmpty
            · simp [hlink, htarget] at h
            · simp only [hlink, Bool.not_true, Bool.and_false, Bool.false_eq_true, htarget,
                ↓reduceIte] at h
              simpa [htarget, Path.steps] using hjump _ _ _ h
    · rw [descend_not_directory hdirectory] at h
      contradiction

/-- A path that can be followed aims at where it leads. -/
theorem aimFrom_of_follow {d : Disk} {links : Nat} {p q : Place} {pieces : List String}
    (h : d.follow true links p pieces = some q) :
    d.aimFrom links p (pieces.filter Path.leads) = some q := by
  induction links generalizing p q pieces with
  | zero => exact aimDown_of_descend (by simp) h
  | succ links ih => exact aimDown_of_descend (fun _ _ _ hjump => ih hjump) h

/-- A path leads where it is found to lead. -/
theorem aim?_of_place? {d : Disk} {path : String} {q : Place} (h : d.place? true path = some q) :
    d.aim? path = some q := by
  rw [place?] at h
  split at h
  · contradiction
  · exact aimFrom_of_follow h

structure SameLinks (d e : Disk) : Prop where
  home_eq : e.home = d.home
  link_eq : ∀ p, e.linkAt? p = d.linkAt? p

theorem SameLinks.refl (d : Disk) : SameLinks d d := ⟨rfl, fun _ => rfl⟩

theorem SameLinks.trans {d e f : Disk} (h : SameLinks d e) (h' : SameLinks e f) : SameLinks d f :=
  ⟨h'.home_eq.trans h.home_eq, fun p => (h'.link_eq p).trans (h.link_eq p)⟩

theorem SameLinks.aimDown_eq {d e : Disk} (h : SameLinks d e) (jump : Place → List String → Option Place)
    (p : Place) (steps : List String) : e.aimDown jump p steps = d.aimDown jump p steps := by
  induction steps generalizing p with
  | nil => rfl
  | cons step steps ih => rw [aimDown, aimDown, h.link_eq, ih, ih]

theorem SameLinks.aimFrom_eq {d e : Disk} (h : SameLinks d e) (links : Nat) :
    e.aimFrom links = d.aimFrom links := by
  funext p steps
  induction links generalizing p steps with
  | zero => exact h.aimDown_eq _ p steps
  | succ links ih =>
    have hjump : e.aimFrom links = d.aimFrom links := funext fun q => funext fun rest => ih q rest
    rw [aimFrom, aimFrom, hjump, h.aimDown_eq]

/-- Only links and the working directory decide where a path leads. -/
theorem SameLinks.aim?_eq {d e : Disk} (h : SameLinks d e) (path : String) :
    e.aim? path = d.aim? path := by
  rw [aim?, aim?, h.home_eq, h.aimFrom_eq]

/-- A last name that is no link stands below where the steps before it lead. -/
theorem aimDown_append {d : Disk} {jump : Place → List String → Option Place} {name : String}
    (hname : name ≠ "..")
    (hjump : ∀ p steps, (∀ q, jump p steps = some q → d.linkAt? (q ++ [name]) = none) →
      jump p (steps ++ [name]) = (jump p steps).map (· ++ [name]))
    {p : Place} {steps : List String}
    (hlink : ∀ q, d.aimDown jump p steps = some q → d.linkAt? (q ++ [name]) = none) :
    d.aimDown jump p (steps ++ [name]) = (d.aimDown jump p steps).map (· ++ [name]) := by
  induction steps generalizing p with
  | nil => simp [aimDown, hname, hlink p rfl]
  | cons step steps ih =>
    rw [List.cons_append, aimDown, aimDown]
    by_cases hup : step = ".."
    · simp only [aimDown, hup, ↓reduceIte] at hlink ⊢
      exact ih hlink
    · rw [if_neg hup, if_neg hup]
      rw [aimDown, if_neg hup] at hlink
      cases hstep : d.linkAt? (p ++ [step]) with
      | none =>
        simp only [hstep] at hlink
        exact ih hlink
      | some target =>
        by_cases htarget : target.isEmpty
        · simp [htarget]
        · simp only [hstep, htarget, Bool.false_eq_true, ↓reduceIte] at hlink ⊢
          rw [← List.append_assoc]
          exact hjump _ _ hlink

theorem aimFrom_append {d : Disk} {links : Nat} {name : String} (hname : name ≠ "..") {p : Place}
    {steps : List String}
    (hlink : ∀ q, d.aimFrom links p steps = some q → d.linkAt? (q ++ [name]) = none) :
    d.aimFrom links p (steps ++ [name]) = (d.aimFrom links p steps).map (· ++ [name]) := by
  induction links generalizing p steps with
  | zero => exact aimDown_append hname (by simp) hlink
  | succ links ih => exact aimDown_append hname (fun _ _ h => ih h) hlink

/-- A name that is no link leads to its own place in the directory. -/
theorem aim?_join {d : Disk} {path name : String} (hname : Path.IsName name)
    (hlink : ∀ q, d.aim? path = some q → d.linkAt? (q ++ [name]) = none) :
    d.aim? (Path.join path name) = (d.aim? path).map (· ++ [name]) := by
  rw [aim?, Path.steps_join path hname, Path.isAbsolute_join path hname]
  exact aimFrom_append hname.not_up hlink

end Disk

end PackageTriage
