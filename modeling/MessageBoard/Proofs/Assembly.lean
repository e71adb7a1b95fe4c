import Mathlib
import MessageBoard.Config.Basic
import MessageBoard.Proofs.Addresses
import MessageBoard.Proofs.Cuts

/-!
# URLs assembled from settings

A URL is put together from settings as they stand, so a mark within a setting looks like one between
two of them. Cutting a URL at its marks always gives a target that has none of them in the wrong
place (`Target.isDelimited_of_ofUrl?`). These are the targets that a URL identifies. A password, if
there is one, can always be taken for a part of the user's name.
-/

namespace MessageBoard

namespace Config

open Text

/-- Who is to be the user of which database, and where. -/
structure Target where
  username : String
  password : String
  host : String
  port : UInt16
  database : String
  deriving DecidableEq

namespace Target

/-- The target that a URL names, cut at its marks: the credentials end at the last `@`, the user's
name at the first colon, and what stands before the first slash behind the credentials is a host
with the port behind its last colon. -/
def ofUrlChars? (url : List Char) : Option Target := do
  let (_, rest) ← cutFirst? schemeMark url
  let (credentials, location) ← cutLast? '@' rest
  let (authority, database) ← cutFirst? ['/'] location
  let (host, port) ← cutLast? ':' authority
  let port ← Net.SocketAddress.port? port
  let (username, password) := (cutFirst? [':'] credentials).getD (credentials, [])
  return ⟨.ofList username, .ofList password, .ofList host, port, .ofList database⟩

def ofUrl? (url : String) : Option Target := ofUrlChars? url.toList

/-- The targets that have at most one field changed. -/
inductive ChangesOne (t : Target) : Target → Prop
  | username (username : String) : ChangesOne t { t with username }
  | password (password : String) : ChangesOne t { t with password }
  | host (host : String) : ChangesOne t { t with host }
  | port (port : UInt16) : ChangesOne t { t with port }
  | database (database : String) : ChangesOne t { t with database }

/-- No field holds a mark that would end it, or an earlier one, before its time. -/
structure IsDelimited (t : Target) : Prop where
  username : ':' ∉ t.username.toList
  host : '@' ∉ t.host.toList ∧ '/' ∉ t.host.toList
  database : '@' ∉ t.database.toList

theorem isDelimited_of_ofUrl? {url : String} {t : Target} (h : ofUrl? url = some t) :
    t.IsDelimited := by
  rw [ofUrl?, ofUrlChars?] at h
  obtain ⟨⟨scheme, rest⟩, -, h⟩ := Option.bind_eq_some_iff.1 h
  obtain ⟨⟨credentials, location⟩, hcredentials, h⟩ := Option.bind_eq_some_iff.1 h
  obtain ⟨⟨authority, database⟩, hauthority, h⟩ := Option.bind_eq_some_iff.1 h
  obtain ⟨⟨host, port⟩, hhost, h⟩ := Option.bind_eq_some_iff.1 h
  obtain ⟨number, -, h⟩ := Option.bind_eq_some_iff.1 h
  obtain rfl := Option.some.inj h
  have hlocation := (eq_of_cutLast? hcredentials).2
  rw [eq_of_cutFirst? hauthority, (eq_of_cutLast? hhost).1] at hlocation
  have hslash := notMem_of_cutFirst? hauthority
  rw [(eq_of_cutLast? hhost).1] at hslash
  simp only [List.mem_append, List.mem_cons, not_or] at hlocation hslash
  refine ⟨?_, ?_, ?_⟩
  · rw [String.toList_ofList]
    exact notMem_getD_cutFirst? ':' credentials []
  · rw [String.toList_ofList]
    exact ⟨hlocation.1.1.1, hslash.1⟩
  · rw [String.toList_ofList]
    exact hlocation.2

end Target

namespace Database

variable {d d' : Database}

def target (d : Database) : Target := ⟨d.username, d.password, d.host, d.port, d.database⟩

def locationChars (d : Database) : List Char :=
  d.host.toList ++ ':' :: (decimal d.port.toNat ++ '/' :: d.database.toList)

def passwordChars (password : String) : List Char :=
  if password = "" then [] else ':' :: password.toList

theorem passwordChars_injective : Function.Injective passwordChars := by
  intro a b h
  rw [passwordChars, passwordChars] at h
  split_ifs at h with ha hb hb
  · exact ha.trans hb.symm
  · exact String.toList_inj.1 (List.cons.inj h).2

theorem toList_credentials (d : Database) :
    d.credentials.toList = d.username.toList ++ passwordChars d.password := by
  rw [credentials, passwordChars]
  split_ifs
  · rw [List.append_nil]
  · simp

theorem toList_connectionUrl (h : d.url = none) : d.connectionUrl.toList =
    "postgres".toList ++ (schemeMark ++ (d.credentials.toList ++ '@' :: d.locationChars)) := by
  have hscheme : "postgres://".toList = "postgres".toList ++ schemeMark := by decide
  simp [connectionUrl, h, hscheme, locationChars]

theorem connectionUrl_inj (h : d.url = none) (h' : d'.url = none) :
    d.connectionUrl = d'.connectionUrl ↔
      d.username.toList ++ passwordChars d.password ++ '@' :: d.locationChars =
        d'.username.toList ++ passwordChars d'.password ++ '@' :: d'.locationChars := by
  rw [← String.toList_inj, toList_connectionUrl h, toList_connectionUrl h',
    List.append_cancel_left_eq, List.append_cancel_left_eq, toList_credentials,
    toList_credentials]

/-- One setting that changes does not leave the URL as it was, whatever marks there are. -/
theorem target_eq_of_connectionUrl (h : d.url = none) (h' : d'.url = none)
    (hone : d.target.ChangesOne d'.target) (hsame : d.connectionUrl = d'.connectionUrl) :
    d.target = d'.target := by
  have heq := (connectionUrl_inj h h').1 hsame
  simp only [locationChars] at heq
  obtain ⟨_, host, port, username, password, database⟩ := d
  obtain ⟨_, host', port', username', password', database'⟩ := d'
  cases hone with
  | username _ =>
    simpa [target, String.toList_inj] using heq
  | password _ =>
    have hchars : passwordChars password = passwordChars password' := by simpa using heq
    rw [target, target, passwordChars_injective hchars]
  | host _ =>
    simpa [target, String.toList_inj] using heq
  | port _ =>
    have hdigits : decimal port.toNat = decimal port'.toNat := by simpa using heq
    have hnat := congrArg (Nat.ofDigitChars 10 · 0) hdigits
    simp only [ofDigitChars_decimal] at hnat
    rw [target, target, UInt16.toNat_inj.1 hnat]
  | database _ =>
    simpa [target, String.toList_inj] using heq

end Database

namespace Target

variable {d : Database}

theorem cut_credentials (h : d.target.IsDelimited) :
    (cutFirst? [':'] d.credentials.toList).getD (d.credentials.toList, []) =
      (d.username.toList, d.password.toList) := by
  have hcolon : ':' ∉ d.username.toList := h.username
  rw [Database.toList_credentials, Database.passwordChars]
  by_cases hpassword : d.password = ""
  · rw [if_pos hpassword, List.append_nil, cutFirst?_eq_none (not_within_of_notMem hcolon),
      hpassword]
    rfl
  · rw [if_neg hpassword, cutFirst?_char hcolon]
    rfl

theorem ofUrl?_connectionUrl (hurl : d.url = none) (h : d.target.IsDelimited) :
    ofUrl? d.connectionUrl = some d.target := by
  have hdigits {c : Char} (hc : c.isDigit = false) : c ∉ decimal d.port.toNat :=
    Net.Ip4.notMem_decimal hc _
  obtain ⟨hat, hslash⟩ := h.host
  have hscheme : cutFirst? schemeMark d.connectionUrl.toList =
      some ("postgres".toList, d.credentials.toList ++ '@' :: d.locationChars) := by
    rw [Database.toList_connectionUrl hurl]
    exact cutFirst?_of_not_within (by decide) (by decide) _
  have hcredentials : '@' ∉ d.locationChars := by
    simp only [Database.locationChars, List.mem_append, List.mem_cons, not_or]
    exact ⟨hat, by decide, hdigits (by decide), by decide, h.database⟩
  have hauthority : cutFirst? ['/'] d.locationChars =
      some (d.host.toList ++ ':' :: decimal d.port.toNat, d.database.toList) := by
    have hnone : '/' ∉ d.host.toList ++ ':' :: decimal d.port.toNat := by
      simp only [List.mem_append, List.mem_cons, not_or]
      exact ⟨hslash, by decide, hdigits (by decide)⟩
    rw [← cutFirst?_char hnone, Database.locationChars, List.append_assoc, List.cons_append]
  have hcolon : ':' ∉ decimal d.port.toNat := hdigits (by decide)
  rw [ofUrl?, ofUrlChars?, hscheme]
  simp only [bind, Option.bind, cutLast?_char hcredentials, hauthority,
    cutLast?_char hcolon, Net.SocketAddress.port?_decimal, cut_credentials h, String.ofList_toList]
  rfl

end Target

/-- The settings with the password left out and put into the user's name. -/
def Database.joined (d : Database) : Database :=
  { d with username := d.username ++ ":" ++ d.password, password := "" }

theorem Database.connectionUrl_joined {d : Database} (h : d.password ≠ "") :
    d.joined.connectionUrl = d.connectionUrl := by
  simp only [connectionUrl, credentials, joined, if_neg h, if_pos]

/-- A URL that is assembled is read back just when no setting holds a mark in the wrong place: of
the settings without such marks, those of another target have another URL. It is another one as well
after a single setting has changed. With every password, though, there is a user without one who has
the same URL. -/
theorem urls_identify_delimited_targets (d d' : Database) (h : d.url = none)
    (h' : d'.url = none) :
    (Target.ofUrl? d.connectionUrl = some d.target ↔ d.target.IsDelimited) ∧
      (d.target.IsDelimited → d'.target.IsDelimited →
        (d.connectionUrl = d'.connectionUrl ↔ d.target = d'.target)) ∧
      (d.target.ChangesOne d'.target →
        (d.connectionUrl = d'.connectionUrl ↔ d.target = d'.target)) ∧
      (d.password ≠ "" → d.joined.connectionUrl = d.connectionUrl ∧ d.joined.password = "") := by
  have hequal (heq : d.target = d'.target) : d.connectionUrl = d'.connectionUrl := by
    obtain ⟨husername, hpassword, hhost, hport, hdatabase⟩ := Target.mk.inj heq
    rw [Database.connectionUrl_inj h h', Database.locationChars, Database.locationChars,
      husername, hpassword, hhost, hport, hdatabase]
  refine ⟨⟨Target.isDelimited_of_ofUrl?, Target.ofUrl?_connectionUrl h⟩, ?_, ?_, ?_⟩
  · intro hd hd'
    refine ⟨fun hsame => ?_, hequal⟩
    have hread := Target.ofUrl?_connectionUrl h hd
    rw [hsame, Target.ofUrl?_connectionUrl h' hd'] at hread
    exact (Option.some.inj hread).symm
  · intro hone
    exact ⟨Database.target_eq_of_connectionUrl h h' hone, hequal⟩
  · intro hpassword
    exact ⟨Database.connectionUrl_joined hpassword, rfl⟩

theorem changed_host_changes_url :
    let d : Database := { password := "hunter2" }
    let elsewhere : Database := { password := "hunter2", host := "db.internal", port := 5433 }
    let marked : Database := { password := "hunter2", host := "db@internal" }
    Target.ofUrl? d.connectionUrl = some d.target ∧ d.connectionUrl ≠ elsewhere.connectionUrl ∧
      d.connectionUrl ≠ marked.connectionUrl ∧ d.joined.connectionUrl = d.connectionUrl := by
  intro d elsewhere marked
  have hd : d.target.IsDelimited := ⟨by decide, by decide, by decide⟩
  have helsewhere : elsewhere.target.IsDelimited := ⟨by decide, by decide, by decide⟩
  have hmarked : d.target.ChangesOne marked.target := .host "db@internal"
  obtain ⟨hread, hdelimited, -, hpassword⟩ := urls_identify_delimited_targets d elsewhere rfl rfl
  obtain ⟨-, -, hchanged, -⟩ := urls_identify_delimited_targets d marked rfl rfl
  refine ⟨hread.2 hd, fun hsame => ?_, fun hsame => ?_, (hpassword (by decide)).1⟩
  · exact absurd ((hdelimited hd helsewhere).1 hsame) (by decide)
  · exact absurd ((hchanged hmarked).1 hsame) (by decide)

/-- The URL of a user without a password and with a colon in the name is the URL of someone else,
who has one, and it is shown as if what follows the colon were to be masked. -/
theorem one_url_of_two_users :
    let d : Database := { username := "a:b" }
    let d' : Database := { username := "a", password := "b" }
    d.url = none ∧ d'.url = none ∧ d.username ≠ d'.username ∧ d.password ≠ d'.password ∧
      d.connectionUrl = d'.connectionUrl ∧ d.redactedUrl ≠ d.connectionUrl := by
  decide

end Config

end MessageBoard
