import MessageBoard.Config.Url
import MessageBoard.Proofs.Cuts

/-!
# Passwords masked in URLs

The marks that the parts of a URL are told by may stand in any of them, in the password most of all.
As long as each mark is missing in the one part that it ends or begins, the cuts fall between the
parts: at the first mark of a scheme, at the last `@`, at the first colon between them. Masking puts
another password between the same marks, where it is found again. Of a URL without such parts one of
the cuts fails.
-/

namespace MessageBoard.Config

open Text

/-- A URL that has a password, by its parts. Nothing is asked of the password. -/
@[ext] structure PasswordUrl where
  scheme : String
  user : String
  password : String
  rest : String
  scheme_unmarked : ¬ schemeMark <:+: scheme.toList
  user_unmarked : ':' ∉ user.toList
  rest_unmarked : '@' ∉ rest.toList

namespace PasswordUrl

variable (u : PasswordUrl)

def text : String := u.scheme ++ "://" ++ u.user ++ ":" ++ u.password ++ "@" ++ u.rest

def masked : PasswordUrl := { u with password := mask }

def credentialChars : List Char := u.user.toList ++ ':' :: u.password.toList

theorem toList_text : u.text.toList =
    u.scheme.toList ++ ':' :: (['/', '/'] ++ (u.credentialChars ++ '@' :: u.rest.toList)) := by
  simp [text, credentialChars]

/-! ## Where it is cut -/

theorem cut_scheme : cutFirst? schemeMark u.text.toList =
    some (u.scheme.toList, u.credentialChars ++ '@' :: u.rest.toList) := by
  rw [toList_text]
  exact cutFirst?_of_not_within (by decide) u.scheme_unmarked _

theorem cut_rest : cutLast? '@' (u.credentialChars ++ '@' :: u.rest.toList) =
    some (u.credentialChars, u.rest.toList) :=
  cutLast?_char u.rest_unmarked u.credentialChars

theorem cut_credentials : cutFirst? [':'] u.credentialChars =
    some (u.user.toList, u.password.toList) :=
  cutFirst?_char u.user_unmarked u.password.toList

theorem text_injective : Function.Injective text := by
  intro u v h
  have hscheme := u.cut_scheme
  rw [h, v.cut_scheme] at hscheme
  obtain ⟨hscheme, hbehind⟩ := Prod.mk.inj (Option.some.inj hscheme)
  have hrest := u.cut_rest
  rw [← hbehind, v.cut_rest] at hrest
  obtain ⟨hcredentials, hrest⟩ := Prod.mk.inj (Option.some.inj hrest)
  have hpassword := u.cut_credentials
  rw [← hcredentials, v.cut_credentials] at hpassword
  obtain ⟨huser, hpassword⟩ := Prod.mk.inj (Option.some.inj hpassword)
  exact PasswordUrl.ext (String.toList_inj.1 hscheme.symm) (String.toList_inj.1 huser.symm)
    (String.toList_inj.1 hpassword.symm) (String.toList_inj.1 hrest.symm)

theorem maskUrl_text : maskUrl u.text = u.masked.text := by
  rw [← String.toList_inj, maskUrl, String.toList_ofList, toList_text u.masked]
  simp only [maskUrlChars, cut_scheme, cut_rest, cut_credentials]
  simp [masked, credentialChars, schemeMark]

theorem exists_text_of_cuts {url : String}
    {scheme behind credentials rest user password : List Char}
    (hscheme : cutFirst? schemeMark url.toList = some (scheme, behind))
    (hrest : cutLast? '@' behind = some (credentials, rest))
    (huser : cutFirst? [':'] credentials = some (user, password)) :
    ∃ u : PasswordUrl, u.text = url := by
  have hunmarked : ¬ schemeMark <:+: scheme := not_within_of_cutFirst? (by decide) hscheme
  have hcolon : ':' ∉ user := notMem_of_cutFirst? huser
  obtain ⟨hbehind, hat⟩ := eq_of_cutLast? hrest
  have hurl := eq_of_cutFirst? hscheme
  rw [hbehind, eq_of_cutFirst? huser] at hurl
  rw [← @String.toList_ofList scheme] at hunmarked
  rw [← @String.toList_ofList user] at hcolon
  rw [← @String.toList_ofList rest] at hat
  refine ⟨⟨.ofList scheme, .ofList user, .ofList password, .ofList rest, hunmarked, hcolon, hat⟩,
    ?_⟩
  rw [← String.toList_inj, toList_text, hurl]
  simp [credentialChars, schemeMark]

end PasswordUrl

/-- Only a URL that has a password is changed. -/
theorem exists_text_of_maskUrl_ne {url : String} (h : maskUrl url ≠ url) :
    ∃ u : PasswordUrl, u.text = url := by
  have hchanged : maskUrlChars url.toList ≠ url.toList := fun hsame =>
    h (by rw [maskUrl, hsame, String.ofList_toList])
  rw [maskUrlChars] at hchanged
  cases hscheme : cutFirst? schemeMark url.toList with
  | none => simp [hscheme] at hchanged
  | some atScheme =>
    cases hrest : cutLast? '@' atScheme.2 with
    | none => simp [hscheme, hrest] at hchanged
    | some atRest =>
      cases huser : cutFirst? [':'] atRest.1 with
      | none => simp [hscheme, hrest, huser] at hchanged
      | some _ => exact PasswordUrl.exists_text_of_cuts hscheme hrest huser

/-- The mask stands where the password stood, and a mask there is masked by itself. -/
theorem maskUrl_maskUrl (url : String) : maskUrl (maskUrl url) = maskUrl url := by
  by_cases hsame : maskUrl url = url
  · rw [hsame, hsame]
  · obtain ⟨u, rfl⟩ := exists_text_of_maskUrl_ne hsame
    calc maskUrl (maskUrl u.text) = u.masked.masked.text := by
          rw [u.maskUrl_text, u.masked.maskUrl_text]
      _ = maskUrl u.text := u.maskUrl_text.symm

/-- Masking changes nothing but the password of a URL that has one, in whatever way that is written,
and there is only one such way to read a URL. What is shown can be masked again without a change. -/
theorem password_alone_masked (url : String) :
    maskUrl (maskUrl url) = maskUrl url ∧
      (∀ u : PasswordUrl, u.text = url →
        maskUrl url = u.scheme ++ "://" ++ u.user ++ ":" ++ "********" ++ "@" ++ u.rest ∧
          ∀ v : PasswordUrl, v.text = url → v = u) ∧
      ((∀ u : PasswordUrl, u.text ≠ url) → maskUrl url = url) := by
  refine ⟨maskUrl_maskUrl url, ?_, fun hnone => ?_⟩
  · rintro u rfl
    exact ⟨u.maskUrl_text, fun v hv => PasswordUrl.text_injective hv⟩
  · by_contra hne
    obtain ⟨u, hu⟩ := exists_text_of_maskUrl_ne hne
    exact hnone u hu

/-- A password made of all the marks is masked as a whole. A user whose name no colon follows before
the last `@` has none, whatever comes then. -/
theorem marks_in_password_masked :
    let u : PasswordUrl :=
      ⟨"postgres:", "app", "a@b://c:d", "db.internal:5432/x://y", by decide, by decide, by decide⟩
    let plain := "postgres://app@db.internal:5432/x://y"
    maskUrl u.text = "postgres:://app:********@db.internal:5432/x://y" ∧
      (∀ v : PasswordUrl, v.text = u.text → v = u) ∧
      (∀ v : PasswordUrl, v.text ≠ plain) ∧ maskUrl plain = plain := by
  intro u plain
  have hplain (v : PasswordUrl) : v.text ≠ plain := by
    intro hv
    have hshown : v.masked.text = plain := by
      rw [← v.maskUrl_text, hv]
      decide
    have hmask : '*' ∈ v.masked.text.toList := by
      simp [PasswordUrl.text, PasswordUrl.masked, mask]
    rw [hshown] at hmask
    exact absurd hmask (by decide)
  obtain ⟨-, hparts, -⟩ := password_alone_masked u.text
  obtain ⟨hshown, honly⟩ := hparts u rfl
  obtain ⟨-, -, hsame⟩ := password_alone_masked plain
  exact ⟨hshown.trans (by decide), honly, hplain, hsame hplain⟩

end MessageBoard.Config
