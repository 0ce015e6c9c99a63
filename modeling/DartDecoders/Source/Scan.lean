/-
Declarations from a source text.

Comments go first. Every place where the generator's annotation stands then gives one declaration:
its arguments describe the envelope, and what stands behind the other annotations is the declared
element. The declarations come in the order of the source.
-/
import DartDecoders.Report
import DartDecoders.Source.Comment
import DartDecoders.Source.Header

set_option autoImplicit false

namespace DartDecoders

namespace Source

/-- The declaration of an annotation, from its parenthesis to the end of a source of the given
length. -/
def declarationAt (total : Nat) (site : Text) (sourceFile : Json) : Except Fault Declaration := do
  let (arguments, behind) ← splitGroup (total - site.length) site
  let envelope := Envelope.ofArguments (argumentEntries arguments)
  let declared ← skipMarkers total behind
  readDeclaration total declared envelope sourceFile

/-- Behind the arguments of the annotation and the other annotations the declaration is read. -/
theorem declarationAt_eq {total : Nat} {site arguments behind declared : Text}
    (hgroup : splitGroup (total - site.length) site = .ok (arguments, behind))
    (hskip : skipMarkers total behind = .ok declared) (sourceFile : Json) :
    declarationAt total site sourceFile
      = readDeclaration total declared (.ofArguments (argumentEntries arguments)) sourceFile := by
  rw [declarationAt, hgroup]
  simp only [bind, Except.bind, hskip]

/-- The declarations of a source text, or the fault of the first that cannot be read. -/
def declarations (t : Text) (sourceFile : Json) : Except Fault (List Declaration) :=
  let t := stripComments t
  (markerSites t).mapM fun site => declarationAt t.length site sourceFile

/-- The declarations of a source text, with a record for each and one for their number. -/
def scan (t : Text) (sourceFile : Json) : Report (List Declaration) := do
  let t := stripComments t
  let found ← (markerSites t).mapM fun site => do
    let declaration ← Report.lift (declarationAt t.length site sourceFile)
    Report.note .debug <|
      Text.concat
        ["Found @JsonToModel on ", declaration.kind.display, " ", declaration.name.display]
    return declaration
  let origin := if sourceFile.isTruthy then sourceFile.display else "<source>".toText
  Report.note .info <|
    Text.concat ["Found ", Text.ofNat found.length, " @JsonToModel declaration(s) in ", origin]
  return found

/-- Scanning answers with the declarations of the source. -/
theorem result_scan (t : Text) (sourceFile : Json) :
    (scan t sourceFile).result = declarations t sourceFile := by
  have hmap : ∀ sites : List Text,
      (sites.mapM fun site => do
        let declaration ← Report.lift (declarationAt (stripComments t).length site sourceFile)
        Report.note .debug <|
          Text.concat ["Found @JsonToModel on ", declaration.kind.display, " ",
            declaration.name.display]
        return declaration : Report (List Declaration)).result
      = sites.mapM fun site => declarationAt (stripComments t).length site sourceFile := by
    intro sites
    induction sites with
    | nil => rfl
    | cons site rest ih =>
      simp only [List.mapM_cons, Report.result_bind, Report.result_lift, ih]
      cases declarationAt (stripComments t).length site sourceFile with
      | error e => rfl
      | ok d =>
        cases rest.mapM fun site => declarationAt (stripComments t).length site sourceFile <;> rfl
  unfold scan declarations
  simp only [Report.result_bind, hmap]
  cases (markerSites (stripComments t)).mapM fun site =>
    declarationAt (stripComments t).length site sourceFile <;> rfl

end Source

end DartDecoders
