import PackageTriage.Proofs.Training.History
import PackageTriage.Proofs.Training.Outputs

/-!
# What was written last

Runs of all families, sweeps and saves, take turns on the same two directories. Each file then holds what
the last run of its own kind left there that succeeded: runs of other families pass it by, and a run that
fails has failed before it comes to its model or its report.
-/

namespace PackageTriage

open Run

/-- What others do between two runs: they may change data, but neither links nor what runs write. -/
structure Aside (dirs : Directories) (d e : Disk) : Prop where
  wellFormed : e.WellFormed
  sameLinks : d.SameLinks e
  holds_eq : ∀ o : Output, e.holds? (o.path dirs) = d.holds? (o.path dirs)
  bytes_eq : ∀ o : Output, e.bytes? (o.path dirs) = d.bytes? (o.path dirs)

/-- The runs since a first disk, and the disk after them, if only runs touch the files that runs write. -/
inductive Turns (dirs : Directories) (first : Disk) : List Event → Disk → Prop where
  | start : Turns dirs first [] first
  | run {es : List Event} (e : Event) (h : Turns dirs first es e.found) :
      Turns dirs first (es ++ [e]) (e.left dirs)
  | aside {es : List Event} {d e : Disk} (h : Turns dirs first es d) (hde : Aside dirs d e) :
      Turns dirs first es e

def lastWritten (dirs : Directories) (es : List Event) (o : Output) : Option (List UInt8) :=
  es.reverse.findSome? fun e => e.request.writes? dirs e.grids e.found o

/-- Every file holds what was written to it last, and is found. -/
theorem Turns.holds?_eq {dirs : Directories} {first d : Disk} {es : List Event} (hvacant : Vacant dirs first)
    (h : Turns dirs first es d) :
    d.WellFormed ∧ first.SameLinks d ∧
      ∀ o : Output, d.holds? (o.path dirs) = lastWritten dirs es o ∧ d.Finds (o.path dirs) := by
  induction h with
  | start =>
    refine ⟨hvacant.wellFormed, .refl first, fun o => ?_⟩
    have hnone := hvacant.holds?_output o
    exact ⟨hnone, Disk.finds_of_holds?_eq_none hnone⟩
  | run e h ih =>
    obtain ⟨hwellFormed, hlinks, houtputs⟩ := ih
    have hapart := hvacant.apart.of_sameLinks hlinks
    obtain ⟨hleft, hgrows, hrun⟩ := e.request.outputs_run hwellFormed e.grids hapart
    refine ⟨hleft, hlinks.trans hgrows.toSameLinks, fun o => ⟨?_, (hrun o).2 (houtputs o).2⟩⟩
    rw [Event.left, (hrun o).1, (houtputs o).1, lastWritten, lastWritten, List.reverse_append,
      List.reverse_singleton, List.singleton_append, List.findSome?_cons]
    cases e.request.writes? dirs e.grids e.found o <;> rfl
  | aside h hde ih =>
    obtain ⟨-, hlinks, houtputs⟩ := ih
    refine ⟨hde.wellFormed, hlinks.trans hde.sameLinks, fun o => ⟨?_, ?_⟩⟩
    · rw [hde.holds_eq, (houtputs o).1]
    · rw [Disk.Finds, hde.holds_eq, hde.bytes_eq]
      exact (houtputs o).2

namespace Event

section

variable (dirs : Directories) (f : Family) (e : Event)

end

variable {dirs : Directories} {f : Family} {e : Event}

end Event

namespace Turns

variable {dirs : Directories} {first d : Disk} {es : List Event}

end Turns

end PackageTriage
