import GoLdap.Go.Error

/-!
# Error — the errors of the package (`error.go`)

An error of the package is an `*Error` with a result code, a plain error passed through, or a text around another error.
-/

namespace GoLdap

open Go

def errorNetwork : ℕ := 200
def errorFilterCompile : ℕ := 201
def errorFilterDecompile : ℕ := 202
def errorDebugging : ℕ := 203
def errorUnexpectedMessage : ℕ := 204
def errorUnexpectedResponse : ℕ := 205
def errorEmptyPassword : ℕ := 206

/-- An `error` value of the package: a plain error, an `*Error`, or an error with another one formatted into it.  The
packet an `*Error` may carry along is left out. -/
inductive Err where
  | plain (cause : Error)
  | ldap (resultCode : ℕ) (matchedDN : GoString) (cause : Error)
  | wrapped (text : String) (cause : Err)
  deriving DecidableEq, Repr

/-- `NewError`. -/
def newError (resultCode : ℕ) (cause : Error) : Err := .ldap resultCode [] cause

/-- `IsErrorAnyOf` on an error that is not nil.  Only the verb that wraps an error lets `errors.As` find it. -/
def isErrorAnyOf : Err → List ℕ → Bool
  | .plain _, _ => false
  | .ldap resultCode _ _, codes => codes.contains resultCode
  | .wrapped text cause, codes => text.endsWith "%w" && isErrorAnyOf cause codes

/-- `IsErrorWithCode`. -/
def isErrorWithCode (err : Err) (desiredResultCode : ℕ) : Bool := isErrorAnyOf err [desiredResultCode]

theorem isErrorWithCode_ldap {resultCode : ℕ} {matchedDN : GoString} {cause : Error} {n : ℕ} :
    isErrorWithCode (.ldap resultCode matchedDN cause) n = true ↔ resultCode = n := by
  simp [isErrorWithCode, isErrorAnyOf]

end GoLdap
