import SearchQuery.Proofs.Json.Reader

-- Conditions go to documents and back without a change, and so does every condition that was
-- read from a document.

namespace SearchQuery

open SearchQuery.Numeral

-- What is written fits: numbers that are not finite are not written as numbers.
theorem Value.fits_toDocument (v : Value) : v.toDocument.fits := by
  induction v with
  | unit => rfl
  | text s => rfl
  | integer n =>
    have hlow := n.le_toInt
    have hhigh := n.toInt_lt
    have hfits : (Document.integer n.toInt).fits := by
      simp only [Document.fits, Bool.and_eq_true, decide_eq_true_eq]
      omega
    simp [toDocument, hfits]
  | float x =>
    have hfits : (if x.isFinite then Document.float x else .null).fits := by
      split
      · next hx => exact hx
      · rfl
    simp [toDocument, hfits]
  | timestamp t => rfl
  | comparison op v ih => simp [toDocument, ih]
  | reduced op v negated ih =>
    have hfits : (negatedMember negated).all fun m => m.2.fits := by
      cases negated <;> rfl
    simp [toDocument, ih, hfits]

namespace Condition

theorem fits_toDocument (c : Condition) : c.toDocument.fits := by
  induction c with
  | not c ih => simp [toDocument, ih]
  | and cs ih => simpa [toDocument, toDocuments_eq_map] using ih
  | or cs ih => simpa [toDocument, toDocuments_eq_map] using ih
  | leaf kind v => simp [toDocument, v.fits_toDocument]

theorem ofDocument_toDocument_of_finite {c : Condition} (h : c.isFinite) :
    ofDocument c.toDocument = some c := by
  rw [ofDocument, ofDocumentAt_toDocument, if_pos h]

-- Writing is undone by reading, and is refused if some number is not finite; what is read from
-- any document is read again from the document that it writes.
theorem roundTrip :
    (∀ c : Condition, ofDocument c.toDocument = if c.isFinite then some c else none) ∧
      ∀ (d : Document) (c : Condition), d.fits → ofDocument d = some c →
        c.isFinite ∧ ofDocument c.toDocument = some c := by
  constructor
  · exact ofDocumentAt_toDocument false
  · intro d c hfits h
    have hfinite := isFinite_of_ofDocumentAt hfits h
    exact ⟨hfinite, ofDocument_toDocument_of_finite hfinite⟩

-- Members in another order, one that is not known, a flag that is null and an integer for a
-- floating-point number.
theorem roundTrip_rearranged :
    let members : List (String × Document) := [("not", .null), ("since", .integer 2),
      ("operator", .string "<"), ("value", .record [("float", .integer 3)])]
    let operand : Document := .record [("value", .record [("reduced", .record members)]),
      ("kind", .string "size"), ("type", .string "leaf")]
    let d : Document := .record [("operand", operand), ("type", .string "not")]
    let c := not (leaf "size" (.reduced .less (.float (Binary64.ofInt 3)) none))
    d.fits ∧ ofDocument d = some c ∧ c.isFinite ∧ ofDocument c.toDocument = some c := by
  intro members operand d c
  have hfits : d.fits := by decide
  have hvalue : Value.ofDocument (.record [("reduced", .record members)]) =
      some (.reduced .less (.float (Binary64.ofInt 3)) none) := by
    have hmember : memberOf "value" members = some (.record [("float", .integer 3)]) := by
      simp [members, memberOf]
    have hoperator : memberOf "operator" members = some (.string "<") := by
      simp [members, memberOf]
    have hnegated : optionalMember Document.boolean? "not" members = some none := by
      simp [members, optionalMember]
    rw [Value.ofDocument_reduced hmember hoperator hnegated (Value.strictOperator?_symbol .less),
      Value.ofDocument_float]
    rfl
  have hoperand : ofDocumentAt true operand =
      some (leaf "size" (.reduced .less (.float (Binary64.ofInt 3)) none)) := by
    rw [ofDocumentAt_record]
    simp [memberOf, Form.ofDocument, Form.all, Form.name, ofMembers, hvalue, Document.text?]
  have hread : ofDocument d = some c := by
    rw [ofDocument, ofDocumentAt_record]
    simp [memberOf, Form.ofDocument, Form.all, Form.name, ofMembers, hoperand, c]
  exact ⟨hfits, hread, roundTrip.2 d c hfits hread⟩

-- Every text of a condition holds finite numbers only.
theorem isFinite_of_ofJsonText {text : String} {c : Condition} (h : ofJsonText text = some c) :
    c.isFinite := by
  simp only [ofJsonText] at h
  split at h
  · exact isFinite_of_ofDocumentAt (Json.fits_read text) h
  · cases h

end Condition

end SearchQuery
