import PackageTriage.Proofs.Bytes.SelfDelimiting
import PackageTriage.Proofs.Storage.Slots

/-!
# Writing that broke off

Saving writes into the slot itself, so a crash can leave the slot with the front of what was to be
written. Loading never takes that for a value: it fails to decode it, wherever the writing broke off.
-/

namespace PackageTriage

/-- The file at a path has only the front of the bytes that it had when it was whole. -/
structure Torn (path : String) (whole torn : Disk) : Prop where
  exists_cut : ∃ bytes cut, whole.bytes? path = some bytes ∧ torn.bytes? path = some cut ∧
    cut <+: bytes ∧ cut ≠ bytes

namespace Store

open Layout Run

/-- What was saved is not loaded when the saving broke off. -/
theorem load_torn {β : Type} [Layout β] [SelfDelimiting β] {models path written : String} {b : β}
    {d saved torn : Disk} (hd : d.WellFormed) (hsave : (save models path b).on d = (.ok written, saved))
    (hsize : (write b).length < 2 ^ 64) (htorn : Torn path saved torn) :
    (load β path).on torn = (.error .undecodable, torn) := by
  obtain ⟨bytes, cut, hwhole, hcut, hfront, hne⟩ := htorn.exists_cut
  have hbytes := (save_eq_ok hd hsave).2
  obtain rfl : write b = bytes := Option.some.inj (hbytes.symm.trans hwhole)
  have hnone : (decode? cut : Option β) = none := SelfDelimiting.decode?_eq_none hsize hfront hne
  rw [on_load, hcut]
  simp only [hnone]

/-- Neither a model nor a scaler is loaded from a slot in which the saving of one broke off. No file has
bytes for more than a word can count. -/
theorem load_refuses_torn (models : String) {d : Disk} (hd : d.WellFormed) :
    (∀ (a : Artifact Float) (written : String) (saved torn : Disk),
      (saveModel models a).on d = (.ok written, saved) → (write a).length < 2 ^ 64 →
      Torn (modelPath models a.family) saved torn →
      (loadModel Float models a.family).on torn = (.error .undecodable, torn)) ∧
    ∀ (f : Family) (s : Scaler Float) (written : String) (saved torn : Disk),
      (saveScaler models f s).on d = (.ok written, saved) → (write s).length < 2 ^ 64 →
      Torn (scalerPath models f) saved torn →
      (loadScaler Float models f).on torn = (.error .undecodable, torn) := by
  refine ⟨fun a written saved torn hsave hsize htorn => ?_, fun f s written saved torn => load_torn hd⟩
  exact on_bind_of_error (load_torn hd hsave hsize htorn) _

/-- A model that was never fitted, in a slot without its last byte, and a scaler without its last two. -/
theorem load_refuses_torn_naiveBayes :
    let a : Artifact Float := ⟨.naiveBayes, .minMax, "s", .naiveBayes (.unfitted 1)⟩
    let s : Scaler Float := .minMax [0] [1]
    let saved := ((saveModel "models" a).on .empty).2
    let saved' := ((saveScaler "models" .naiveBayes s).on .empty).2
    let torn := (saved.put? "models/NB.pkl" (write a).dropLast).getD default
    let torn' := (saved'.put? "models/NB_scaler.pkl" (write s).dropLast.dropLast).getD default
    Disk.empty.WellFormed ∧ Torn (modelPath "models" a.family) saved torn ∧
      Torn (scalerPath "models" .naiveBayes) saved' torn' ∧
      (loadModel Float "models" a.family).on torn = (.error .undecodable, torn) ∧
      (loadScaler Float "models" .naiveBayes).on torn' = (.error .undecodable, torn') := by
  intro a s saved saved' torn torn'
  have hd : Disk.empty.WellFormed := Disk.wellFormed_of_entries rfl (by decide +kernel)
  have htorn : Torn (modelPath "models" a.family) saved torn :=
    ⟨write a, (write a).dropLast, by decide +kernel, by decide +kernel, List.dropLast_prefix _,
      by decide +kernel⟩
  have htorn' : Torn (scalerPath "models" .naiveBayes) saved' torn' :=
    ⟨write s, (write s).dropLast.dropLast, by decide +kernel, by decide +kernel,
      (List.dropLast_prefix _).trans (List.dropLast_prefix _), by decide +kernel⟩
  obtain ⟨hmodel, hscaler⟩ := load_refuses_torn "models" hd
  refine ⟨hd, htorn, htorn', ?_, ?_⟩
  · have hsave : (saveModel "models" a).on .empty = (.ok "models/NB.pkl", saved) :=
      Prod.ext (by decide +kernel) rfl
    exact hmodel a _ saved torn hsave (by decide +kernel) htorn
  · have hsave : (saveScaler "models" .naiveBayes s).on .empty = (.ok "models/NB_scaler.pkl", saved') :=
      Prod.ext (by decide +kernel) rfl
    exact hscaler .naiveBayes s _ saved' torn' hsave (by decide +kernel) htorn'

end Store

end PackageTriage
