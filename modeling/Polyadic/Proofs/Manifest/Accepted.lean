import Polyadic.Manifest.Read
import Polyadic.Proofs.Except

/-!
# Accepted manifests

`IsValid` collects what the checks ask of a manifest, and every manifest that is read from a text is valid
(`IsValid.of_ofText`). The rest says what a text without a fault is made of: a plain name of letters, digits
and underscores, a dotted name of plain names and dots.
-/

namespace Polyadic.Manifest

/-- The checks find no fault in the manifest. -/
structure IsValid (manifest : Manifest) : Prop where
  path : pathFault? manifest.output = none
  namespaceName : dottedNameFault? manifest.names.namespaceName.toList = none
  usings : ∀ name ∈ manifest.names.usings, dottedNameFault? name.toList = none
  key : keyFault? manifest.names.key.toList = none

namespace Context

variable {context : Context}

lemma judge_eq_ok {fault? : List Char → Option NameFault} {name kind : String}
    (h : context.judge fault? name kind = .ok ()) : fault? name.toList = none := by
  unfold judge at h
  split at h
  · assumption
  · cases h

lemma check_eq_ok {output : Output} {names : Names} (h : context.check output names = .ok ())
    (arities : Arities) : IsValid ⟨output, arities, names⟩ := by
  unfold check at h
  split at h
  · cases h
  · rename_i path
    obtain ⟨_, namespaceName, h⟩ := bind_eq_ok.mp h
    obtain ⟨_, usings, key⟩ := bind_eq_ok.mp h
    exact ⟨path, judge_eq_ok namespaceName, fun name hmem => judge_eq_ok (forM_eq_ok.mp usings name hmem),
      judge_eq_ok key⟩

end Context

theorem IsValid.of_ofText {text file : String} {manifest : Manifest}
    (h : ofText text file = .ok manifest) : manifest.IsValid := by
  -- The names are checked last, once the text is read and the range of arities is made.
  obtain ⟨draft, _, judged⟩ := bind_eq_ok.mp h
  obtain ⟨arities, _, judged⟩ := bind_eq_ok.mp judged
  obtain ⟨_, checked, result⟩ := bind_eq_ok.mp judged
  cases result
  exact Context.check_eq_ok checked arities

/-! ## Texts without faults -/

lemma nameFault?_eq_none {name : List Char} (h : nameFault? name = none) :
    ∃ c rest, name = c :: rest ∧ isNameStart c = true ∧ rest.all isNameChar = true := by
  cases name with
  | nil => cases h
  | cons c rest =>
    rw [nameFault?] at h
    split at h
    · cases h
    · rename_i start
      split at h
      · cases h
      · rename_i all
        simp only [Bool.not_eq_true', Bool.not_eq_false] at start all
        exact ⟨c, rest, rfl, start, all⟩

lemma isNameChar_of_isNameStart {c : Char} (h : isNameStart c = true) : isNameChar c = true := by
  simp only [isNameStart, isNameChar, Char.isAlphanum, Bool.or_eq_true] at h ⊢
  exact h.imp_left .inl

lemma isNameChar_of_nameFault? {name : List Char} (h : nameFault? name = none) :
    ∀ c ∈ name, isNameChar c = true := by
  obtain ⟨c, rest, rfl, start, all⟩ := nameFault?_eq_none h
  exact List.forall_mem_cons.mpr ⟨isNameChar_of_isNameStart start, List.all_eq_true.mp all⟩

lemma keyFault?_eq_none {name : List Char} (h : keyFault? name = none) :
    nameFault? name = none ∧ name.head?.any Char.isUpper = false := by
  unfold keyFault? at h
  split at h
  · cases h
  · rename_i plain
    split at h
    · cases h
    · rename_i lower
      exact ⟨plain, Bool.eq_false_of_not_eq_true lower⟩

lemma segmentFault?_eq_none {segment : List Char} (h : segmentFault? segment = none) :
    nameFault? segment = none ∧ Naming.isReservedWord segment = false := by
  unfold segmentFault? at h
  split at h
  · cases h
  · split at h
    · cases h
    · rename_i plain
      split at h
      · cases h
      · rename_i unreserved
        exact ⟨plain, Bool.eq_false_of_not_eq_true unreserved⟩

lemma isNameChar_of_dottedNameFault? {name : List Char} (h : dottedNameFault? name = none) :
    ∀ c ∈ name, isNameChar c = true ∨ c = '.' := by
  unfold dottedNameFault? at h
  split at h
  · cases h
  · intro c hc
    obtain dot | ⟨segment, hsegment, hc⟩ := Text.exists_mem_split (· == '.') hc
    · exact .inr (beq_iff_eq.mp dot)
    · have plain := (segmentFault?_eq_none (List.findSome?_eq_none_iff.mp h segment hsegment)).1
      exact .inl (isNameChar_of_nameFault? plain c hc)

end Polyadic.Manifest
