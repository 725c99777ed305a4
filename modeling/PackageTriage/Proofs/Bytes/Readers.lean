import PackageTriage.Bytes.Layout

/-!
# Readers

A reader takes bytes from the front of a list. Two laws decide how it meets bytes that end too early:
bytes put behind those that it was content with are left over and change nothing, and behind bytes that
some value was written as it never stops before their end. Both pass from the parts of a reader to the
reader, so whether what is read is right never matters.
-/

namespace PackageTriage

namespace Layout

variable {α β γ : Type}

abbrev Reader (β : Type) := List UInt8 → Option (β × List UInt8)

namespace Reader

/-- More bytes at the end are left over and change nothing else. -/
structure Extends (r : Reader β) : Prop where
  read_append : ∀ {bs rest : List UInt8} {b : β}, r bs = some (b, rest) →
    ∀ more, r (bs ++ more) = some (b, rest ++ more)

/-- What is read from bytes that begin with `w`, if anything, ends with `w`. -/
structure Consumes (r : Reader β) (w : List UInt8) : Prop where
  left_eq : ∀ {rest left : List UInt8} {b : β}, r (w ++ rest) = some (b, left) → left = rest

variable {r : Reader β} {k : β → Reader γ} {w v : List UInt8}

/-- Readers one after the other look no further than each of them does. -/
theorem Extends.bind (hr : Extends r) (hk : ∀ b, Extends (k b)) :
    Extends fun bs => (r bs).bind fun p => k p.1 p.2 where
  read_append := by
    intro bs rest c h more
    obtain ⟨⟨b, mid⟩, hb, hc⟩ := Option.bind_eq_some_iff.1 h
    rw [hr.read_append hb more, Option.bind_some]
    exact (hk b).read_append hc more

theorem Extends.map (hr : Extends r) (f : β → γ) :
    Extends fun bs => (r bs).map fun p => (f p.1, p.2) where
  read_append := by
    intro bs rest c h more
    obtain ⟨⟨b, mid⟩, hb, hc⟩ := Option.map_eq_some_iff.1 h
    obtain ⟨rfl, rfl⟩ := Prod.mk.inj hc
    rw [hr.read_append hb more, Option.map_some]

theorem extends_done (b : β) : Extends fun bs => some (b, bs) where
  read_append h more := by
    obtain ⟨rfl, rfl⟩ := Prod.mk.inj (Option.some.inj h)
    rfl

theorem extends_none : Extends fun _ => (none : Option (β × List UInt8)) where
  read_append h := nomatch h

/-- A check that does not read. -/
theorem extends_check (o : Option β) (hk : ∀ b, Extends (k b)) :
    Extends fun bs => o.bind fun b => k b bs := by
  cases o with
  | none => exact extends_none
  | some b => exact hk b

theorem Consumes.bind (hr : Consumes r w) (hk : ∀ b, Consumes (k b) v) :
    Consumes (fun bs => (r bs).bind fun p => k p.1 p.2) (w ++ v) where
  left_eq := by
    intro rest left c h
    rw [List.append_assoc] at h
    obtain ⟨⟨b, mid⟩, hb, hc⟩ := Option.bind_eq_some_iff.1 h
    obtain rfl := hr.left_eq hb
    exact (hk b).left_eq hc

/-- What comes first is known, so only the reader that it asks for matters. -/
theorem consumes_behind {b : β} (hr : ∀ rest, r (w ++ rest) = some (b, rest)) (hk : Consumes (k b) v) :
    Consumes (fun bs => (r bs).bind fun p => k p.1 p.2) (w ++ v) where
  left_eq := by
    intro rest left c h
    rw [List.append_assoc, hr] at h
    exact hk.left_eq h

/-- Nothing is read behind what comes last. -/
theorem Consumes.last (hr : Consumes r w) (hk : ∀ b, Consumes (k b) []) :
    Consumes (fun bs => (r bs).bind fun p => k p.1 p.2) w := by
  have hbind := hr.bind hk
  rwa [List.append_nil] at hbind

theorem Consumes.map (hr : Consumes r w) (f : β → γ) :
    Consumes (fun bs => (r bs).map fun p => (f p.1, p.2)) w where
  left_eq := by
    intro rest left c h
    obtain ⟨⟨b, mid⟩, hb, hc⟩ := Option.map_eq_some_iff.1 h
    obtain ⟨-, rfl⟩ := Prod.mk.inj hc
    exact hr.left_eq hb

theorem consumes_done (b : β) : Consumes (fun bs => some (b, bs)) [] where
  left_eq h := (Prod.mk.inj (Option.some.inj h)).2.symm

theorem consumes_none (w : List UInt8) : Consumes (fun _ => (none : Option (β × List UInt8))) w where
  left_eq h := nomatch h

/-- A check on what was read takes no bytes of its own. -/
theorem consumes_check (o : Option β) (hk : ∀ b, Consumes (k b) w) :
    Consumes (fun bs => o.bind fun b => k b bs) w := by
  cases o with
  | none => exact consumes_none w
  | some b => exact hk b

/-- A reader that cannot do without a first byte. -/
theorem extends_cons (hnil : r [] = none) (h : ∀ c, Extends fun bs => r (c :: bs)) : Extends r where
  read_append := by
    intro bs rest b hread more
    cases bs with
    | nil => simp [hnil] at hread
    | cons c bs => exact (h c).read_append hread more

theorem consumes_cons {c : UInt8} (h : Consumes (fun bs => r (c :: bs)) w) : Consumes r (c :: w) where
  left_eq hread := h.left_eq hread

end Reader

open Reader

@[simp] theorem length_writeWord (count n : Nat) : (writeWord count n).length = count := by
  induction count generalizing n with
  | zero => rfl
  | succ count ih => rw [writeWord, List.length_cons, ih]

theorem extends_readWord (count : Nat) : Extends (readWord count) where
  read_append := by
    intro bs rest n h more
    induction count generalizing bs n with
    | zero => exact (extends_done 0).read_append h more
    | succ count ih =>
      cases bs with
      | nil => contradiction
      | cons b bs =>
        obtain ⟨⟨m, mid⟩, hm, hn⟩ := Option.map_eq_some_iff.1 h
        obtain ⟨rfl, rfl⟩ := Prod.mk.inj hn
        rw [List.cons_append, readWord, ih hm, Option.map_some]

/-- A word is read from as many bytes as it has. -/
theorem consumes_readWord {count : Nat} {w : List UInt8} (h : w.length = count) :
    Consumes (readWord count) w where
  left_eq := by
    intro rest left n hread
    induction count generalizing w n with
    | zero =>
      obtain rfl := List.length_eq_zero_iff.1 h
      exact (consumes_done 0).left_eq hread
    | succ count ih =>
      cases w with
      | nil => contradiction
      | cons b w =>
        obtain ⟨⟨m, mid⟩, hm, hn⟩ := Option.map_eq_some_iff.1 hread
        obtain ⟨rfl, rfl⟩ := Prod.mk.inj hn
        exact ih (Nat.succ.inj h) hm

theorem extends_readTag : Extends readTag := extends_readWord 4

theorem consumes_readTag (n : Nat) : Consumes readTag (writeTag n) := consumes_readWord (length_writeWord 4 n)

end Layout

end PackageTriage
