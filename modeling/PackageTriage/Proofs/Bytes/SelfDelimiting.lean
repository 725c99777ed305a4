import PackageTriage.Proofs.Bytes.Models
import PackageTriage.Proofs.Bytes.Readers

/-!
# Values that are cut off

The bytes of a value tell where they end, by the lengths, tags and option bytes among them. So a reader
that gets only the front of them always asks for more than there is. No value has to be read back for
this, and no number has to fit its word but the lengths of lists, which count what was written.
-/

namespace PackageTriage

open Layout Layout.Reader

/-- A layout whose values tell where they end. Lengths are taken to fit their words: every element takes
a byte, so this is all that the elements of a list need to be counted right. -/
class SelfDelimiting (α : Type) [Layout α] : Prop where
  length_pos : ∀ a : α, 0 < (write a).length
  extends_read : Extends (read : Reader α)
  consumes_read : ∀ a : α, (write a).length < 2 ^ 64 → Consumes (read : Reader α) (write a)

namespace SelfDelimiting

variable {α β γ : Type} [Layout α] [Layout β] [SelfDelimiting α] [SelfDelimiting β]

/-- A value that is cut off is not read. -/
theorem decode?_eq_none {a : α} {cut : List UInt8} (hsize : (write a).length < 2 ^ 64)
    (hcut : cut <+: write a) (hne : cut ≠ write a) : (decode? cut : Option α) = none := by
  obtain ⟨more, hmore⟩ := hcut
  cases hread : (read cut : Option (α × List UInt8)) with
  | none => rw [decode?, hread, Option.map_none]
  | some p =>
    -- Read from the whole bytes, the same value would leave what was cut off behind it.
    have hall : read (write a ++ []) = some (p.1, p.2 ++ more) := by
      rw [List.append_nil, ← hmore]
      exact extends_read.read_append hread more
    have hnil := (consumes_read a hsize).left_eq hall
    obtain rfl : more = [] := (List.append_eq_nil_iff.1 hnil).2
    exact absurd (by simpa using hmore) hne

instance : SelfDelimiting Nat where
  length_pos n := (length_writeWord 8 n).symm ▸ Nat.zero_lt_succ 7
  extends_read := extends_readWord 8
  consumes_read n _ := consumes_readWord (length_writeWord 8 n)

omit [Layout α] [SelfDelimiting α] in
/-- A type laid out as another one that holds the same. -/
theorem via (view : α → β) (of : β → α) : @SelfDelimiting α (Layout.via view of) :=
  letI := Layout.via view of
  { length_pos a := SelfDelimiting.length_pos (view a)
    extends_read := extends_read.map of
    consumes_read a h := (SelfDelimiting.consumes_read (view a) h).map of }

instance : SelfDelimiting UInt64 := SelfDelimiting.via UInt64.toNat Nat.toUInt64

instance : SelfDelimiting Float := SelfDelimiting.via Float.toBits Float.ofBits

instance : SelfDelimiting UInt8 where
  length_pos _ := Nat.zero_lt_one
  extends_read := extends_cons rfl extends_done
  consumes_read b _ := consumes_cons (consumes_done b)

instance : SelfDelimiting Bool where
  length_pos _ := Nat.zero_lt_one
  extends_read := by
    refine extends_cons rfl fun c => ?_
    by_cases hfalse : c = 0
    · exact hfalse ▸ extends_done false
    · by_cases htrue : c = 1
      · exact htrue ▸ extends_done true
      · simpa [Layout.read, hfalse, htrue] using extends_none
  consumes_read b _ := by
    cases b with
    | false => exact consumes_cons (consumes_done false)
    | true => exact consumes_cons (consumes_done true)

instance : SelfDelimiting (α × β) where
  length_pos p := by
    show 0 < (write p.1 ++ write p.2).length
    rw [List.length_append]
    exact Nat.add_pos_left (length_pos p.1) _
  extends_read := extends_read.bind fun a => extends_read.bind fun b => extends_done (a, b)
  consumes_read p h := by
    change (write p.1 ++ write p.2).length < 2 ^ 64 at h
    rw [List.length_append] at h
    have hsecond : Consumes (read : Reader β) (write p.2) := consumes_read p.2 (by omega)
    exact (consumes_read p.1 (by omega)).bind fun a => hsecond.last fun b => consumes_done (a, b)

instance : SelfDelimiting (Option α) where
  length_pos o := by cases o <;> exact Nat.succ_pos _
  extends_read := by
    refine extends_cons rfl fun c => ?_
    by_cases hnone : c = 0
    · exact hnone ▸ extends_done none
    · by_cases hsome : c = 1
      · exact hsome ▸ extends_read.map some
      · simpa [Layout.read, hnone, hsome] using extends_none
  consumes_read o h := by
    cases o with
    | none => exact consumes_cons (consumes_done none)
    | some a =>
      have hlength : (write a).length + 1 < 2 ^ 64 := h
      exact consumes_cons ((consumes_read a (by omega)).map some)

theorem extends_readMany (count : Nat) : Extends (readMany count : Reader (List α)) := by
  induction count with
  | zero => exact extends_done []
  | succ count ih => exact extends_read.bind fun a => ih.bind fun as => extends_done (a :: as)

theorem consumes_readMany {as : List α} (h : (as.flatMap write).length < 2 ^ 64) :
    Consumes (readMany as.length : Reader (List α)) (as.flatMap write) := by
  induction as with
  | nil => exact consumes_done []
  | cons a as ih =>
    rw [List.flatMap_cons, List.length_append] at h
    have hrest := ih (by omega)
    exact (consumes_read a (by omega)).bind fun b => hrest.last fun bs => consumes_done (b :: bs)

/-- Every value takes a byte, so a list has no more of them than its bytes. -/
theorem length_le_flatMap_write (as : List α) : as.length ≤ (as.flatMap write).length := by
  induction as with
  | nil => exact Nat.le_refl 0
  | cons a as ih =>
    have hpos := length_pos a
    rw [List.flatMap_cons, List.length_append, List.length_cons]
    omega

instance : SelfDelimiting (List α) where
  length_pos as := by
    show 0 < (write as.length ++ as.flatMap write).length
    rw [List.length_append]
    exact Nat.add_pos_left (length_pos as.length) _
  extends_read := extends_read.bind extends_readMany
  consumes_read as h := by
    change (write as.length ++ as.flatMap write).length < 2 ^ 64 at h
    rw [List.length_append] at h
    have hfew := length_le_flatMap_write as
    have hcount : LawfulLayout.Fits as.length := show as.length < 2 ^ 64 by omega
    exact consumes_behind (LawfulLayout.read_write as.length hcount) (consumes_readMany (by omega))

instance : SelfDelimiting String where
  length_pos s := length_pos s.toUTF8.toList
  extends_read := (extends_read : Extends (read : Reader (List UInt8))).bind fun bytes =>
    extends_check (String.fromUTF8? ⟨bytes.toArray⟩) extends_done
  consumes_read s h := (consumes_read s.toUTF8.toList h).last fun bytes =>
    consumes_check (String.fromUTF8? ⟨bytes.toArray⟩) consumes_done

/-- A choice is found at its place, if there is one. -/
theorem ofChoice (α : Type) [Choice α] [DecidableEq α] : @SelfDelimiting α (Layout.ofChoice α) :=
  letI := Layout.ofChoice α
  { length_pos _ := (length_writeWord 4 _).symm ▸ Nat.zero_lt_succ 3
    extends_read := extends_readTag.bind fun place =>
      extends_check ((Choice.all : List α)[place]?) extends_done
    consumes_read a _ := (consumes_readTag ((Choice.all : List α).idxOf a)).last fun place =>
      consumes_check ((Choice.all : List α)[place]?) consumes_done }

instance : SelfDelimiting (Matrix α) where
  length_pos _ := Nat.succ_pos _
  extends_read := extends_cons rfl fun c => extends_check (guard (c = arrayFormat)) fun _ =>
    (extends_read : Extends (read : Reader (Nat × Nat × List α))).bind fun q =>
      extends_check (guard (isShape q.1 q.2.1)) fun _ =>
        extends_check (Matrix.ofEntries? q.1 q.2.1 q.2.2) extends_done
  consumes_read x h := by
    have hlength : (write (x.height, x.width, x.entries)).length + 1 < 2 ^ 64 := h
    have hparts := consumes_read (x.height, x.width, x.entries) (by omega)
    have hmatrix := hparts.last fun q => consumes_check (guard (isShape q.1 q.2.1)) fun _ =>
      consumes_check (Matrix.ofEntries? q.1 q.2.1 q.2.2) consumes_done
    exact consumes_cons (consumes_check (guard (arrayFormat = arrayFormat)) fun _ => hmatrix)

instance : SelfDelimiting (AsVector α) where
  length_pos _ := Nat.succ_pos _
  extends_read := extends_cons rfl fun c => extends_check (guard (c = arrayFormat)) fun _ =>
    (extends_read : Extends (read : Reader (Nat × List α))).bind fun q =>
      extends_check (guard (q.2.length = q.1)) fun _ => extends_done (AsVector.mk q.2)
  consumes_read v h := by
    have hlength : (write (v.entries.length, v.entries)).length + 1 < 2 ^ 64 := h
    have hparts := consumes_read (v.entries.length, v.entries) (by omega)
    have hvector := hparts.last fun q => consumes_check (guard (q.2.length = q.1)) fun _ =>
      consumes_done (AsVector.mk q.2)
    exact consumes_cons (consumes_check (guard (arrayFormat = arrayFormat)) fun _ => hvector)

instance : SelfDelimiting Family := ofChoice Family

instance : SelfDelimiting Method := ofChoice Method

instance : SelfDelimiting Activation := ofChoice Activation

instance : SelfDelimiting Solver := ofChoice Solver

/-- The tag tells which reader goes on behind it. -/
theorem consumes_tagged {r s : Reader γ} {w : List UInt8} (tag : Nat)
    (hbehind : ∀ bs, r (writeTag tag ++ bs) = s bs) (hs : Consumes s w) : Consumes r (writeTag tag ++ w) where
  left_eq h := by
    rw [List.append_assoc, hbehind] at h
    exact hs.left_eq h

theorem length_behind_tag (tag : Nat) {w : List UInt8} (h : (writeTag tag ++ w).length < 2 ^ 64) :
    w.length < 2 ^ 64 := by
  rw [List.length_append] at h
  omega

def readScaler (tag : Nat) : Reader (Scaler α) := fun bs =>
  (read bs : Option ((List α × List α) × List UInt8)).bind fun q =>
    match tag with
    | 0 => some (.standard q.1.1 q.1.2, q.2)
    | 1 => some (.minMax q.1.1 q.1.2, q.2)
    | _ => none

instance : SelfDelimiting (Scaler α) where
  length_pos s := by cases s <;> exact Nat.succ_pos _
  extends_read := by
    have hparts : ∀ tag, Extends (readScaler tag : Reader (Scaler α)) := by
      intro tag
      have hpair : Extends (read : Reader (List α × List α)) := extends_read
      match tag with
      | 0 => exact hpair.bind fun q => extends_done (Scaler.standard q.1 q.2)
      | 1 => exact hpair.bind fun q => extends_done (Scaler.minMax q.1 q.2)
      | _ + 2 => exact hpair.bind fun _ => extends_none
    exact extends_readTag.bind hparts
  consumes_read s h := by
    cases s with
    | standard mean scale =>
      have hparts := (consumes_read (mean, scale) (length_behind_tag 0 h)).last fun q =>
        consumes_done (Scaler.standard q.1 q.2)
      exact consumes_tagged 0 (fun _ => rfl) hparts
    | minMax low scale =>
      have hparts := (consumes_read (low, scale) (length_behind_tag 1 h)).last fun q =>
        consumes_done (Scaler.minMax q.1 q.2)
      exact consumes_tagged 1 (fun _ => rfl) hparts

omit [SelfDelimiting α] in
/-- More fuel reads the same node. -/
theorem readNode_le {fuel fuel' : Nat} (hle : fuel ≤ fuel') {bs : List UInt8} {p : Node α × List UInt8}
    (h : readNode fuel bs = some p) : readNode fuel' bs = some p := by
  induction fuel generalizing fuel' bs p with
  | zero => contradiction
  | succ fuel ih =>
    obtain ⟨fuel', rfl⟩ := Nat.exists_eq_add_one_of_ne_zero (by omega : fuel' ≠ 0)
    have hle : fuel ≤ fuel' := by omega
    obtain ⟨⟨tag, behind⟩, htag, h⟩ := Option.bind_eq_some_iff.1 h
    show ((readTag bs).bind fun p => _) = _
    rw [htag, Option.bind_some]
    match tag, h with
    | 0, h => exact h
    | 1, h =>
      obtain ⟨⟨⟨feature, threshold⟩, behind⟩, hhead, h⟩ := Option.bind_eq_some_iff.1 h
      obtain ⟨⟨left, behind⟩, hleft, h⟩ := Option.bind_eq_some_iff.1 h
      obtain ⟨⟨right, behind⟩, hright, h⟩ := Option.bind_eq_some_iff.1 h
      simp only [hhead, ih hle hleft, ih hle hright, bind, Option.bind_some]
      exact h

def readNodeBehind (fuel tag : Nat) : Reader (Node α) := fun bs =>
  match tag with
  | 0 => (read bs : Option ((α × Nat) × List UInt8)).bind fun q => some (.leaf q.1.1 q.1.2, q.2)
  | 1 => (read bs : Option ((Nat × α) × List UInt8)).bind fun q => (readNode fuel q.2).bind fun l =>
      (readNode fuel l.2).bind fun r => (read r.2 : Option (Nat × List UInt8)).bind fun n =>
        some (.split q.1.1 q.1.2 l.1 r.1 n.1, n.2)
  | _ => none

theorem extends_readNode (fuel : Nat) : Extends (readNode fuel : Reader (Node α)) := by
  induction fuel with
  | zero => exact extends_none
  | succ fuel ih =>
    have hbehind : ∀ tag, Extends (readNodeBehind fuel tag : Reader (Node α)) := by
      intro tag
      match tag with
      | 0 =>
        have hleaf : Extends (read : Reader (α × Nat)) := extends_read
        exact hleaf.bind fun q => extends_done (Node.leaf q.1 q.2)
      | 1 =>
        have hhead : Extends (read : Reader (Nat × α)) := extends_read
        have hn : Extends (read : Reader Nat) := extends_read
        exact hhead.bind fun q => ih.bind fun l => ih.bind fun r => hn.bind fun n =>
          extends_done (Node.split q.1 q.2 l r n)
      | _ + 2 => exact extends_none
    exact extends_readTag.bind hbehind

/-- Reading a node stops where the written node ends, whatever the fuel. -/
theorem consumes_readNode {node : Node α} (h : (writeNode node).length < 2 ^ 64) (fuel : Nat) :
    Consumes (readNode fuel : Reader (Node α)) (writeNode node) := by
  -- Without enough fuel nothing is read at all, so the fuel may be any.
  induction node generalizing fuel with
  | leaf value n =>
    cases fuel with
    | zero => exact consumes_none _
    | succ fuel =>
      have hleaf := (consumes_read (value, n) (length_behind_tag 0 h)).last fun q =>
        consumes_done (Node.leaf q.1 q.2)
      exact consumes_tagged 0 (fun _ => rfl) hleaf
  | split feature threshold left right n ihl ihr =>
    rw [writeNode, List.append_assoc, List.append_assoc, List.append_assoc] at h ⊢
    simp only [List.length_append] at h
    cases fuel with
    | zero => exact consumes_none _
    | succ fuel =>
      have hhead := consumes_read (feature, threshold) (by omega)
      have hleft := ihl (by omega) fuel
      have hright := ihr (by omega) fuel
      have hn := consumes_read n (by omega)
      have hsplit := hhead.bind fun q => hleft.bind fun l => hright.bind fun r => hn.last fun n =>
        consumes_done (Node.split q.1 q.2 l r n)
      exact consumes_tagged 1 (fun _ => rfl) hsplit

instance : SelfDelimiting (Node α) where
  length_pos node := Nat.zero_lt_of_lt (depth_lt_length node)
  extends_read.read_append := by
    intro bs rest node h more
    have hlonger := (extends_readNode _).read_append h more
    -- More bytes give the reader more fuel, too.
    refine readNode_le ?_ hlonger
    rw [List.length_append]
    omega
  consumes_read _ h := ⟨fun hread => (consumes_readNode h _).left_eq hread⟩

instance : SelfDelimiting (DecisionTree α) := by
  unfold Layout.instDecisionTree
  exact via _ _

instance : SelfDelimiting (Forest α) := by
  unfold Layout.instForest
  exact via _ _

instance : SelfDelimiting (NaiveBayes α) := by
  unfold Layout.instNaiveBayes
  exact via _ _

instance : SelfDelimiting (Training α) := by
  unfold Layout.instTraining
  exact via _ _

instance : SelfDelimiting (Perceptron α) := by
  unfold Layout.instPerceptron
  exact via _ _

variable [Scalar α]

instance : SelfDelimiting (VectorMachine α) := by
  unfold Layout.instVectorMachineOfScalar
  exact via _ _

theorem extends_readModel (place : Nat) : Extends (readModel place : Reader (Classifier α)) := by
  refine extends_check Family.all[place]? fun f => ?_
  cases f with
  | randomForest => exact extends_read.map Classifier.forest
  | perceptron => exact extends_read.map Classifier.perceptron
  | naiveBayes => exact extends_read.map Classifier.naiveBayes
  | vectorMachine => exact extends_read.map Classifier.vectorMachine

instance : SelfDelimiting (Classifier α) where
  length_pos k := by cases k <;> exact Nat.succ_pos _
  extends_read := extends_readTag.bind extends_readModel
  consumes_read k h := by
    cases k with
    | forest f =>
      have hforest := (consumes_read f (length_behind_tag 0 h)).map Classifier.forest
      exact consumes_tagged 0 (fun _ => rfl) hforest
    | perceptron p =>
      have hperceptron := (consumes_read p (length_behind_tag 1 h)).map Classifier.perceptron
      exact consumes_tagged 1 (fun _ => rfl) hperceptron
    | naiveBayes b =>
      have hbayes := (consumes_read b (length_behind_tag 2 h)).map Classifier.naiveBayes
      exact consumes_tagged 2 (fun _ => rfl) hbayes
    | vectorMachine m =>
      have hmachine := (consumes_read m (length_behind_tag 3 h)).map Classifier.vectorMachine
      exact consumes_tagged 3 (fun _ => rfl) hmachine

instance : SelfDelimiting (Artifact α) := by
  unfold instLayoutArtifactOfScalar
  exact via _ _

end SelfDelimiting
end PackageTriage
