import MessageBoard.Text.Split

/-!
# Passwords in URLs

The password of a URL stands between the first colon after its scheme and the last `@`. It is hidden
behind a mask wherever a URL is shown.
-/

namespace MessageBoard.Config

open Text

def mask : String := "********"

def schemeMark : List Char := [':', '/', '/']

/-- The URL with its password masked; a URL without a password is shown as it is. -/
def maskUrlChars (cs : List Char) : List Char :=
  match cutFirst? schemeMark cs with
  | none => cs
  | some (scheme, rest) =>
    match cutLast? '@' rest with
    | none => cs
    | some (credentials, host) =>
      match cutFirst? [':'] credentials with
      | none => cs
      | some (user, _) => scheme ++ schemeMark ++ user ++ ':' :: mask.toList ++ '@' :: host

def maskUrl (url : String) : String := .ofList (maskUrlChars url.toList)

end MessageBoard.Config
