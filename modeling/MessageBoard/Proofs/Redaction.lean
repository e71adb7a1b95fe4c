import MessageBoard.Config.File

/-!
# Secrets stay out of what is shown

Two configurations that differ in nothing but their passwords are shown alike. In a URL the mask
covers whatever stands between a colon and an `@`: the cut for the scheme and the one for the user
fall on or before that colon, the cut for the host on or after that `@`, so where they fall does not
depend on what lies between, not even when it looks like a part of a URL itself.
-/

namespace MessageBoard

namespace Config

open Text

/-! ## URLs -/

theorem exists_maskUrlChars {start : List Char} (hstart : schemeMark <:+: start)
    (rest : List Char) :
    ∃ shown, ∀ secret, maskUrlChars (start ++ ':' :: (secret ++ '@' :: rest)) = shown := by
  obtain ⟨scheme, tail, hscheme⟩ := exists_cutFirst? hstart
  obtain ⟨before, host, hhost⟩ := exists_cutLast? (List.mem_cons_self (a := '@') (l := rest))
  have hcolon : [':'] <:+: tail ++ [':'] := (List.suffix_append tail [':']).isInfix
  obtain ⟨user, after, huser⟩ := exists_cutFirst? hcolon
  refine ⟨scheme ++ schemeMark ++ user ++ ':' :: mask.toList ++ '@' :: host, fun secret => ?_⟩
  have hfirst := cutFirst?_append hscheme (':' :: (secret ++ '@' :: rest))
  have hlast := cutLast?_append hhost (tail ++ ':' :: secret)
  have hcredentials := cutFirst?_append huser (secret ++ before)
  simp only [List.append_assoc, List.cons_append, List.nil_append] at hfirst hlast hcredentials
  simp only [maskUrlChars, hfirst, hlast, hcredentials, List.append_assoc, List.cons_append]

/-- URLs that differ in their passwords alone, if at all. What stands around the password is
arbitrary: a password may look like the end of a URL, and a host like a password. -/
inductive UrlsAgree : String → String → Prop
  | refl (url : String) : UrlsAgree url url
  | password (scheme user password password' rest : String) :
    UrlsAgree (scheme ++ "://" ++ user ++ ":" ++ password ++ "@" ++ rest)
      (scheme ++ "://" ++ user ++ ":" ++ password' ++ "@" ++ rest)

theorem UrlsAgree.maskUrl_eq {url url' : String} (h : UrlsAgree url url') :
    maskUrl url = maskUrl url' := by
  cases h with
  | refl => rfl
  | password scheme user password password' rest =>
    have hstart : schemeMark <:+: scheme.toList ++ schemeMark ++ user.toList :=
      ⟨scheme.toList, user.toList, rfl⟩
    obtain ⟨shown, hshown⟩ := exists_maskUrlChars hstart rest.toList
    have hchars (p : String) : (scheme ++ "://" ++ user ++ ":" ++ p ++ "@" ++ rest).toList =
        scheme.toList ++ schemeMark ++ user.toList ++ ':' :: (p.toList ++ '@' :: rest.toList) := by
      simp [schemeMark]
    rw [maskUrl, maskUrl, hchars, hchars, hshown, hshown]

/-! ## Configurations -/

namespace Database

/-- The settings agree in everything but the passwords. Whether there is one is no secret. -/
structure AgreesButSecrets (d d' : Database) : Prop where
  others : d' = { d with url := d'.url, password := d'.password }
  password : d.password = "" ↔ d'.password = ""
  url : Option.Rel UrlsAgree d.url d'.url

namespace AgreesButSecrets

variable {d d' : Database}

theorem map_maskUrl_eq (h : d.AgreesButSecrets d') : d.url.map maskUrl = d'.url.map maskUrl := by
  obtain ⟨-, -, hurl⟩ := h
  generalize d.url = url, d'.url = url' at hurl ⊢
  cases hurl with
  | some hurl => exact congrArg some hurl.maskUrl_eq
  | none => rfl

theorem masked_eq (h : d.AgreesButSecrets d') : d.masked = d'.masked := by
  have hpassword : (if d.password = "" then "" else mask) =
      if d'.password = "" then "" else mask := by simp only [h.password]
  rw [masked, masked, h.map_maskUrl_eq, hpassword, h.others]

theorem debugText_eq (h : d.AgreesButSecrets d') : d.debugText = d'.debugText := by
  obtain ⟨hothers, -, hurl⟩ := h
  generalize d'.url = url', d'.password = password' at hothers hurl
  subst hothers
  unfold debugText
  generalize d.url = url at hurl ⊢
  cases hurl with
  | some hurl =>
    dsimp only
    rw [hurl.maskUrl_eq]
  | none => dsimp only

theorem connectionUrl_agree (h : d.AgreesButSecrets d') :
    UrlsAgree d.connectionUrl d'.connectionUrl := by
  obtain ⟨hothers, hpassword, hurl⟩ := h
  generalize d'.url = url', d'.password = password' at hothers hpassword hurl
  subst hothers
  rw [connectionUrl, connectionUrl]
  generalize d.url = url at hurl ⊢
  cases hurl with
  | some hurl => exact hurl
  | none =>
    simp only [Option.getD_none, credentials]
    by_cases hp : d.password = ""
    · rw [if_pos hp, if_pos (hpassword.1 hp)]
      exact .refl _
    · rw [if_neg hp, if_neg fun h => hp (hpassword.2 h)]
      have hscheme : "postgres" ++ "://" = "postgres://" := by decide
      have hagree := UrlsAgree.password "postgres" d.username d.password password'
        (d.host ++ ":" ++ .ofList (Text.decimal d.port.toNat) ++ "/" ++ d.database)
      rw [hscheme] at hagree
      simpa only [String.append_assoc] using hagree

end AgreesButSecrets

end Database

structure AgreesButSecrets (c c' : Config) : Prop where
  server : c.server = c'.server
  database : c.database.AgreesButSecrets c'.database

/-- Configurations that differ in their secrets alone cannot be told apart by anything that is shown
of them: the URL of the store, the text for a diagnosis, the text of the configuration. -/
theorem shown_alike {c c' : Config} (h : c.AgreesButSecrets c') :
    c.database.redactedUrl = c'.database.redactedUrl ∧
      c.database.debugText = c'.database.debugText ∧
      c.toRedactedToml? = c'.toRedactedToml? := by
  refine ⟨h.database.connectionUrl_agree.maskUrl_eq, h.database.debugText_eq, ?_⟩
  rw [toRedactedToml?, toRedactedToml?, masked, masked, h.database.masked_eq, h.server]

/-- Passwords made of the marks of a URL are hidden, also where the host has such marks itself. -/
theorem hostile_passwords_shown_alike :
    let c : Config := { database := { host := "a@b:c", username := "x:y", password := "p@q:/r" } }
    let c' : Config := { database := { host := "a@b:c", username := "x:y", password := "://@" } }
    c.AgreesButSecrets c' ∧ c.database.connectionUrl ≠ c'.database.connectionUrl ∧
      c.database.redactedUrl = c'.database.redactedUrl ∧
      c.toRedactedToml? = c'.toRedactedToml? := by
  intro c c'
  have h : c.AgreesButSecrets c' := ⟨rfl, rfl, by decide, .none⟩
  obtain ⟨hurl, -, htoml⟩ := shown_alike h
  exact ⟨h, by decide +kernel, hurl, htoml⟩

end Config

end MessageBoard
