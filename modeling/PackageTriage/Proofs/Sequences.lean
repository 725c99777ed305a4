import Mathlib.Data.List.Forall2

/-!
# Sequences of attempts

Attempts made one after the other, of which the first failure is the failure of all.
-/

namespace PackageTriage

variable {β γ ε : Type} {f : β → Except ε γ}

@[simp] theorem ok_bind (b : β) (k : β → Except ε γ) : (Except.ok b >>= k) = k b := rfl

@[simp] theorem error_bind (e : ε) (k : β → Except ε γ) : (Except.error e >>= k) = .error e := rfl

@[simp] theorem pure_eq_ok (b : β) : (pure b : Except ε β) = .ok b := rfl

/-- Two attempts in a row succeed if both do. -/
theorem bind_eq_ok {x : Except ε β} {k : β → Except ε γ} {c : γ} :
    x >>= k = .ok c ↔ ∃ b, x = .ok b ∧ k b = .ok c := by
  cases x <;> simp

theorem mapM_cons_eq_ok {b : β} {bs : List β} {cs : List γ} :
    (b :: bs).mapM f = .ok cs ↔ ∃ c ds, f b = .ok c ∧ bs.mapM f = .ok ds ∧ cs = c :: ds := by
  rw [List.mapM_cons]
  cases f b with
  | error e => simp
  | ok c =>
    cases bs.mapM f with
    | error e => simp
    | ok ds => simp [bind, Except.bind, pure, Except.pure, eq_comm]

/-- Attempts that agree on a sequence agree in sequence. -/
theorem mapM_congr {g : β → Except ε γ} {bs : List β} (h : ∀ b ∈ bs, f b = g b) : bs.mapM f = bs.mapM g := by
  induction bs with
  | nil => rfl
  | cons b bs ih =>
    rw [List.mapM_cons, List.mapM_cons, h b (by simp), ih fun b' hb' => h b' (by simp [hb'])]

/-- Attempts that find the values of a function find all of them in sequence. -/
theorem mapM_eq_ok_map {k : β → γ} {bs : List β} (h : ∀ b ∈ bs, f b = .ok (k b)) : bs.mapM f = .ok (bs.map k) := by
  rw [mapM_congr h]
  exact List.mapM_pure

/-- What each attempt of a sequence found may be changed there or in the end. -/
theorem mapM_except_map {δ : Type} (k : γ → δ) (bs : List β) :
    bs.mapM (fun b => (f b).map k) = (bs.mapM f).map (List.map k) := by
  induction bs with
  | nil => rfl
  | cons b bs ih =>
    rw [List.mapM_cons, List.mapM_cons, ih]
    cases f b with
    | error e => rfl
    | ok c =>
      cases bs.mapM f with
      | error e => rfl
      | ok cs => rfl

/-- What a sequence of attempts found stands place by place. -/
theorem forall₂_of_mapM {bs : List β} {cs : List γ} (h : bs.mapM f = .ok cs) :
    List.Forall₂ (fun b c => f b = .ok c) bs cs := by
  induction bs generalizing cs with
  | nil =>
    obtain rfl : [] = cs := by simpa using h
    exact .nil
  | cons b bs ih =>
    obtain ⟨c, ds, hc, hds, rfl⟩ := mapM_cons_eq_ok.1 h
    exact .cons hc (ih hds)

/-- The values that a sequence of attempts found are those of the attempts, in their order. -/
theorem map_eq_map_ok {bs : List β} {cs : List γ} (h : bs.mapM f = .ok cs) : bs.map f = cs.map .ok := by
  rw [← List.forall₂_eq_eq_eq, List.forall₂_map_left_iff, List.forall₂_map_right_iff]
  exact forall₂_of_mapM h

theorem forall₂_getElem? {R : β → γ → Prop} {bs : List β} {cs : List γ} (h : List.Forall₂ R bs cs) {k : Nat}
    {b : β} {c : γ} (hb : bs[k]? = some b) (hc : cs[k]? = some c) : R b c := by
  obtain ⟨hk, rfl⟩ := List.getElem?_eq_some_iff.1 hb
  obtain ⟨hk', rfl⟩ := List.getElem?_eq_some_iff.1 hc
  exact h.get hk hk'

/-- Attempts that all find something of a kind find it in sequence. -/
theorem exists_mapM_eq_ok_map {δ : Type} {k : δ → γ} {P : δ → Prop} {bs : List β}
    (h : ∀ b ∈ bs, ∃ d, P d ∧ f b = .ok (k d)) :
    ∃ ds : List δ, ds.length = bs.length ∧ bs.mapM f = .ok (ds.map k) ∧ ∀ d ∈ ds, P d := by
  induction bs with
  | nil => exact ⟨[], rfl, rfl, nofun⟩
  | cons b bs ih =>
    obtain ⟨d, hd, hb⟩ := h b List.mem_cons_self
    obtain ⟨ds, hlength, hds, hall⟩ := ih fun b' hb' => h b' (List.mem_cons_of_mem b hb')
    exact ⟨d :: ds, congrArg (· + 1) hlength, mapM_cons_eq_ok.2 ⟨k d, ds.map k, hb, hds, rfl⟩,
      List.forall_mem_cons.2 ⟨hd, hall⟩⟩

/-- Attempts that all succeed succeed in sequence. -/
theorem exists_mapM_eq_ok {bs : List β} (h : ∀ b ∈ bs, ∃ c, f b = .ok c) :
    ∃ cs, bs.mapM f = .ok cs := by
  obtain ⟨cs, -, hcs, -⟩ := exists_mapM_eq_ok_map (k := fun c => c) (P := fun _ => True) fun b hb =>
    (h b hb).imp fun _ hc => ⟨trivial, hc⟩
  exact ⟨_, hcs⟩

/-- Where all attempts succeeded, each one did. -/
theorem exists_eq_ok_of_mem {bs : List β} {cs : List γ} (h : bs.mapM f = .ok cs) {b : β} (hb : b ∈ bs) :
    ∃ c, f b = .ok c := by
  obtain ⟨k, hk, rfl⟩ := List.getElem_of_mem hb
  have hall := List.forall₂_iff_get.1 (forall₂_of_mapM h)
  exact ⟨_, hall.2 k hk (hall.1 ▸ hk)⟩

/-- Everything that was found was found by some attempt. -/
theorem exists_of_mem_mapM {bs : List β} {cs : List γ} (h : bs.mapM f = .ok cs) {c : γ} (hc : c ∈ cs) :
    ∃ b ∈ bs, f b = .ok c := by
  have hall := forall₂_of_mapM h
  clear h
  induction hall with
  | nil => simp at hc
  | cons hb _ ih =>
    rcases List.mem_cons.1 hc with rfl | hc
    · exact ⟨_, by simp, hb⟩
    · obtain ⟨b, hmem, hfb⟩ := ih hc
      exact ⟨b, by simp [hmem], hfb⟩

/-- A sequence that fails fails as one of its attempts does. -/
theorem exists_eq_error_of_mapM {bs : List β} {e : ε} (h : bs.mapM f = .error e) :
    ∃ b ∈ bs, f b = .error e := by
  induction bs with
  | nil => simp at h
  | cons b bs ih =>
    rw [List.mapM_cons] at h
    cases hb : f b with
    | error d =>
      obtain rfl : d = e := by simpa [hb] using h
      exact ⟨b, by simp, hb⟩
    | ok c =>
      cases hbs : bs.mapM f with
      | error d =>
        obtain rfl : d = e := by simpa [hb, hbs] using h
        obtain ⟨b', hmem, hb'⟩ := ih hbs
        exact ⟨b', by simp [hmem], hb'⟩
      | ok cs => simp [hb, hbs] at h

/-- A sequence with an attempt that fails is cut off at the first of them, and fails as that one does. -/
theorem exists_first_error {bs : List β} (h : ∃ b ∈ bs, ∃ e, f b = .error e) :
    ∃ before first behind e, bs = before ++ first :: behind ∧ (∀ b ∈ before, ∃ c, f b = .ok c) ∧
      f first = .error e ∧ bs.mapM f = .error e := by
  induction bs with
  | nil => simp at h
  | cons b bs ih =>
    cases hb : f b with
    | error e => exact ⟨[], b, bs, e, rfl, by simp, hb, by rw [List.mapM_cons, hb, error_bind]⟩
    | ok c =>
      have hrest : ∃ b' ∈ bs, ∃ e, f b' = .error e := by
        obtain ⟨b', hmem, e, hb'⟩ := h
        rcases List.mem_cons.1 hmem with rfl | hmem
        · rw [hb] at hb'
          cases hb'
        · exact ⟨b', hmem, e, hb'⟩
      obtain ⟨before, first, behind, e, rfl, hbefore, hfirst, hall⟩ := ih hrest
      refine ⟨b :: before, first, behind, e, rfl, List.forall_mem_cons.2 ⟨⟨c, hb⟩, hbefore⟩, hfirst, ?_⟩
      rw [List.mapM_cons, hb, ok_bind, hall, error_bind]

/-- A sequence fails as the first attempt that does. -/
theorem mapM_eq_error_of_first {bs : List β} {k : Nat} {b : β} {e : ε} (hk : bs[k]? = some b) (hb : f b = .error e)
    (hbefore : ∀ i < k, ∀ b', bs[i]? = some b' → ∃ c, f b' = .ok c) : bs.mapM f = .error e := by
  induction bs generalizing k with
  | nil => cases hk
  | cons b' bs ih =>
    rw [List.mapM_cons]
    cases k with
    | zero =>
      obtain rfl : b' = b := Option.some.inj hk
      rw [hb, error_bind]
    | succ k =>
      obtain ⟨c, hc⟩ := hbefore 0 k.succ_pos b' rfl
      rw [hc, ok_bind, ih hk fun i hi b'' hb'' => hbefore (i + 1) (Nat.succ_lt_succ hi) b'' hb'', error_bind]

/-- If the attempts that fail all fail alike, and one does, so does the sequence. -/
theorem mapM_eq_error_of {bs : List β} {e : ε} (hall : ∀ b ∈ bs, (∃ c, f b = .ok c) ∨ f b = .error e)
    (hsome : ∃ b ∈ bs, f b = .error e) : bs.mapM f = .error e := by
  induction bs with
  | nil => simp at hsome
  | cons b bs ih =>
    rw [List.mapM_cons]
    rcases hall b (by simp) with ⟨c, hc⟩ | hb
    · have hrest : ∃ b' ∈ bs, f b' = .error e := by
        obtain ⟨b', hmem, hb'⟩ := hsome
        rcases List.mem_cons.1 hmem with rfl | hmem
        · rw [hc] at hb'
          cases hb'
        · exact ⟨b', hmem, hb'⟩
      rw [hc, ok_bind, ih (fun b' hb' => hall b' (by simp [hb'])) hrest, error_bind]
    · rw [hb, error_bind]

/-- Where all attempts fail alike, so does the sequence. -/
theorem mapM_eq_error {bs : List β} {e : ε} (hne : bs ≠ []) (h : ∀ b ∈ bs, f b = .error e) :
    bs.mapM f = .error e := by
  obtain ⟨b, hb⟩ := List.exists_mem_of_ne_nil bs hne
  exact mapM_eq_error_of (fun b hb => .inr (h b hb)) ⟨b, hb, h b hb⟩

/-- What is looked up for every element is looked up with none passed over. -/
theorem filterMap_of_mapM {f : β → Option γ} {bs : List β} {cs : List γ} (h : bs.mapM f = some cs) :
    bs.filterMap f = cs := by
  induction bs generalizing cs with
  | nil => simpa using h
  | cons b bs ih =>
    rw [List.mapM_cons] at h
    obtain ⟨c, hc, h⟩ := Option.bind_eq_some_iff.1 h
    obtain ⟨ds, hds, h⟩ := Option.bind_eq_some_iff.1 h
    rw [List.filterMap_cons_some hc, ih hds]
    exact Option.some.inj h

/-- Where each element finds something, the sequence finds everything. -/
theorem exists_mapM_eq_some {f : β → Option γ} {P : γ → Prop} {bs : List β}
    (h : ∀ b ∈ bs, ∃ c, P c ∧ f b = some c) : ∃ cs, bs.mapM f = some cs ∧ ∀ c ∈ cs, P c := by
  induction bs with
  | nil => exact ⟨[], rfl, by simp⟩
  | cons b bs ih =>
    obtain ⟨c, hc, hb⟩ := h b List.mem_cons_self
    obtain ⟨cs, hcs, hall⟩ := ih fun d hd => h d (List.mem_cons_of_mem b hd)
    exact ⟨c :: cs, by simp [hb, hcs], List.forall_mem_cons.2 ⟨hc, hall⟩⟩

/-- Look-ups that find the values of a function find all of them in sequence. -/
theorem mapM_eq_some_map {f : β → Option γ} {k : β → γ} {bs : List β} (h : ∀ b ∈ bs, f b = some (k b)) :
    bs.mapM f = some (bs.map k) := by
  induction bs with
  | nil => rfl
  | cons b bs ih => simp [h b (by simp), ih fun b' hb' => h b' (by simp [hb'])]

/-- A relation that tells a function's values relates a list to the list of values alone. -/
theorem map_eq_of_forall₂ {R : β → γ → Prop} {g : β → γ} {bs : List β} {cs : List γ}
    (h : List.Forall₂ R bs cs) (hg : ∀ b ∈ bs, ∀ c, R b c → g b = c) : bs.map g = cs := by
  induction h with
  | nil => rfl
  | cons hb _ ih =>
    rw [List.map_cons, hg _ (by simp) _ hb, ih fun b' hb' => hg b' (by simp [hb'])]

end PackageTriage
