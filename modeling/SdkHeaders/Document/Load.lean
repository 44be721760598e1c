import SdkHeaders.Document.Decode
import SdkHeaders.Document.Json
import SdkHeaders.Document.Toml.Reader
import SdkHeaders.Model.Fault

/-!
# Loading models

From the text of a model file to a model: the text is read as a document, the document as
a model file, and the model file is checked.

Main results:

- Definition `SourceFile.decode` reads a model file from a text.
- Definition `SourceFile.load` loads a model.
- Theorem `SourceFile.load_eq_ok_iff`: a model is loaded exactly from a text that decodes to
  a model file without violation.
-/

namespace SdkHeaders

/-- The document tree of a text. -/
def Format.read : Format → String → Option Node
  | .toml, text => Toml.read text
  | .json, text => Json.read text

/-- What is particular to documents of a notation. -/
def Format.dialect : Format → Document.Dialect
  | .toml => .toml
  | .json => .json

namespace SourceFile

/-- The model file that a text says. -/
def decode (file : SourceFile) (format : Format) : Option ModelFile :=
  (format.read file.text).bind (Document.decodeFile format.dialect)

/-- The model that a text says. -/
def load (file : SourceFile) (format : Format) : Except Fault Model :=
  match file.decode format with
  | none => .error (.malformed file.name format none)
  | some declared =>
      match declared.validate with
      | .error violation => .error (file.locate violation)
      | .ok () => .ok (Model.ofFile declared)

/-- A model is loaded exactly from a text that decodes to a model file without violation. -/
theorem load_eq_ok_iff {file : SourceFile} {format : Format} {model : Model} :
    file.load format = .ok model ↔
      ∃ declared, file.decode format = some declared ∧ declared.validate = .ok () ∧
        model = Model.ofFile declared := by
  unfold load
  cases hd : file.decode format with
  | none => simp
  | some declared =>
      cases hv : declared.validate with
      | error violation => simp [hv]
      | ok u =>
          simp only [hv, Option.some.injEq, Except.ok.injEq]
          constructor
          · intro h
            exact ⟨declared, rfl, hv, h.symm⟩
          · rintro ⟨other, rfl, -, rfl⟩
            rfl

end SourceFile

end SdkHeaders
