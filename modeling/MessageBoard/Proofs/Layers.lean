import Mathlib
import MessageBoard.Command.Run
import MessageBoard.Proofs.Switches

/-!
# Layers of settings

The settings come from several sources, each of which may speak of any of them: the command, the
environment, the file, and at the bottom what they are initially. A source that is read changes the
settings it speaks of and no other, so of each setting the uppermost value counts, whatever is said
of the others.
-/

namespace MessageBoard.Config

open Toml

/-! ## Layers -/

inductive Key where
  | bind
  | corsPermissive
  | requestTimeoutSeconds
  | url
  | host
  | port
  | username
  | password
  | database
  | maxConnections
  | idleTimeoutMinutes
  | timeoutSeconds
  deriving DecidableEq

namespace Key

@[reducible] def Content : Key → Type
  | bind => Net.SocketAddress
  | corsPermissive => Bool
  | url | host | username | password | database => String
  | port => UInt16
  | maxConnections => UInt32
  | requestTimeoutSeconds | idleTimeoutMinutes | timeoutSeconds => UInt64

def put : (k : Key) → k.Content → Config → Config
  | bind, v, c => { c with server.bind := v }
  | corsPermissive, v, c => { c with server.corsPermissive := v }
  | requestTimeoutSeconds, v, c => { c with server.requestTimeoutSeconds := v }
  | url, v, c => { c with database.url := some v }
  | host, v, c => { c with database.host := v }
  | port, v, c => { c with database.port := v }
  | username, v, c => { c with database.username := v }
  | password, v, c => { c with database.password := v }
  | database, v, c => { c with database.database := v }
  | maxConnections, v, c => { c with database.maxConnections := v }
  | idleTimeoutMinutes, v, c => { c with database.idleTimeoutMinutes := v }
  | timeoutSeconds, v, c => { c with database.timeoutSeconds := v }

end Key

abbrev Layer := (k : Key) → Option k.Content

/-- What a source says of each setting, if it says something; `none` where it cannot be taken. -/
abbrev Source := (k : Key) → Option (Option k.Content)

def Layer.over (upper lower : Layer) : Layer := fun k => (upper k).or (lower k)

/-- All that the source says can be taken, and it says this. -/
def Source.Says (source : Source) (l : Layer) : Prop := ∀ k, source k = some (l k)

theorem Source.Says.unique {source : Source} {l l' : Layer} (h : source.Says l)
    (h' : source.Says l') : l = l' :=
  funext fun k => Option.some.inj ((h k).symm.trans (h' k))

/-- The values that the settings have; only the URL may have none. -/
def layer (c : Config) : Layer
  | .bind => some c.server.bind
  | .corsPermissive => some c.server.corsPermissive
  | .requestTimeoutSeconds => some c.server.requestTimeoutSeconds
  | .url => c.database.url
  | .host => some c.database.host
  | .port => some c.database.port
  | .username => some c.database.username
  | .password => some c.database.password
  | .database => some c.database.database
  | .maxConnections => some c.database.maxConnections
  | .idleTimeoutMinutes => some c.database.idleTimeoutMinutes
  | .timeoutSeconds => some c.database.timeoutSeconds

theorem layer_put_self (k : Key) (v : k.Content) (c : Config) : (k.put v c).layer k = some v := by
  cases k <;> rfl

theorem layer_put_of_ne {k j : Key} (h : k ≠ j) (v : j.Content) (c : Config) :
    (j.put v c).layer k = c.layer k := by
  cases j <;> cases k <;> first | rfl | exact absurd rfl h

theorem layer_inj {c c' : Config} : c.layer = c'.layer ↔ c = c' := by
  refine ⟨fun h => ?_, fun h => h ▸ rfl⟩
  obtain ⟨⟨_, _, _⟩, ⟨_, _, _, _, _, _, _, _, _⟩⟩ := c
  obtain ⟨⟨_, _, _⟩, ⟨_, _, _, _, _, _, _, _, _⟩⟩ := c'
  obtain rfl := Option.some.inj (congrFun h .bind)
  obtain rfl := Option.some.inj (congrFun h .corsPermissive)
  obtain rfl := Option.some.inj (congrFun h .requestTimeoutSeconds)
  obtain rfl : _ = _ := congrFun h .url
  obtain rfl := Option.some.inj (congrFun h .host)
  obtain rfl := Option.some.inj (congrFun h .port)
  obtain rfl := Option.some.inj (congrFun h .username)
  obtain rfl := Option.some.inj (congrFun h .password)
  obtain rfl := Option.some.inj (congrFun h .database)
  obtain rfl := Option.some.inj (congrFun h .maxConnections)
  obtain rfl := Option.some.inj (congrFun h .idleTimeoutMinutes)
  obtain rfl := Option.some.inj (congrFun h .timeoutSeconds)
  rfl

/-! ## Sources that are read step by step -/

def Source.Reads (source : Source) (step : Config → Option Config) (k : Key) : Prop :=
  ∀ c, step c = (source k).map fun v? => v?.elim c (k.put · c)

section Steps

variable {source : Source} {steps : List (Config → Option Config)} {keys : List Key}

/-- By induction on the steps, which speak of different settings: what one step has put in, no later
step changes. -/
theorem Source.exists_run (h : List.Forall₂ source.Reads steps keys) (hkeys : keys.Nodup)
    {l : Layer} (hvalues : ∀ k ∈ keys, source k = some (l k)) (c : Config) :
    ∃ c', steps.foldlM (fun c step => step c) c = some c' ∧
      ∀ k, c'.layer k = if k ∈ keys then (l k).or (c.layer k) else c.layer k := by
  induction h generalizing c with
  | nil => exact ⟨c, rfl, fun k => (if_neg List.not_mem_nil).symm⟩
  | @cons step key steps keys hstep _ ih =>
    obtain ⟨hkey, hkeys⟩ := List.nodup_cons.1 hkeys
    obtain ⟨hfirst, hrest⟩ := List.forall_mem_cons.1 hvalues
    obtain ⟨c', hrun, hlayer⟩ := ih hkeys hrest ((l key).elim c (key.put · c))
    refine ⟨c', ?_, fun k => ?_⟩
    · rw [List.foldlM_cons, hstep, hfirst]
      exact hrun
    · have hput : ((l key).elim c (key.put · c)).layer k =
          if k = key then (l k).or (c.layer k) else c.layer k := by
        by_cases hk : k = key
        · subst hk
          rw [if_pos rfl]
          cases l k with
          | none => rfl
          | some v => exact layer_put_self k v c
        · rw [if_neg hk]
          cases l key with
          | none => rfl
          | some v => exact layer_put_of_ne hk v c
      rw [hlayer, hput]
      -- no later step is for this setting, so what this one has put in stays
      by_cases hk : k = key
      · subst hk
        simp [hkey]
      · simp [hk]

theorem Source.Says.exists_run {l : Layer} (hl : source.Says l)
    (h : List.Forall₂ source.Reads steps keys) (hkeys : keys.Nodup)
    (hother : ∀ k ∉ keys, source k = some none) (c : Config) :
    ∃ c', steps.foldlM (fun c step => step c) c = some c' ∧ c'.layer = l.over c.layer := by
  obtain ⟨c', hrun, hlayer⟩ := Source.exists_run h hkeys (fun k _ => hl k) c
  refine ⟨c', hrun, funext fun k => ?_⟩
  rw [hlayer, Layer.over]
  by_cases hk : k ∈ keys
  · rw [if_pos hk]
  · have hnone : l k = none := Option.some.inj ((hl k).symm.trans (hother k hk))
    rw [if_neg hk, hnone, Option.none_or]

end Steps

/-! ## What the sources say -/

def environmentSource (lookup : String → Option String) : Source
  | .bind => (lookup "ROSETTA_SERVER_BIND").mapM Net.SocketAddress.ofText?
  | .url => some (lookup "DATABASE_URL")
  | .host => some (lookup "ROSETTA_DATABASE_HOST")
  | .port => (lookup "ROSETTA_DATABASE_PORT").mapM fun v => (number? UInt16.size v).map .ofNat
  | .username => some (lookup "ROSETTA_DATABASE_USERNAME")
  | .password => some (lookup "ROSETTA_DATABASE_PASSWORD")
  | .database => some (lookup "ROSETTA_DATABASE_NAME")
  | .maxConnections =>
    (lookup "ROSETTA_DATABASE_MAX_CONNECTIONS").mapM fun v => (number? UInt32.size v).map .ofNat
  | .timeoutSeconds =>
    (lookup "ROSETTA_DATABASE_TIMEOUT_SECONDS").mapM fun v => (number? UInt64.size v).map .ofNat
  | _ => some none

def Override.step (lookup : String → Option String) (o : Override) (c : Config) : Option Config :=
  match lookup o.key with
  | none => some c
  | some value => o.apply value c

theorem applyEach_eq_iff (lookup : String → Option String) (os : List Override) {c c' : Config} :
    applyEach lookup os c = (c', none) ↔
      (os.map (Override.step lookup)).foldlM (fun c step => step c) c = some c' := by
  induction os generalizing c with
  | nil => simp [applyEach]
  | cons o os ih =>
    rw [applyEach, List.map_cons, List.foldlM_cons, Override.step]
    cases lookup o.key with
    | none => exact ih
    | some value =>
      dsimp only
      cases o.apply value c with
      | none => exact iff_of_false (fun h => by cases h) fun h => by cases h
      | some c => exact ih

theorem reads_override {lookup : String → Option String} {o : Override} {k : Key} {source : Source}
    {read : String → Option k.Content} (hsource : source k = (lookup o.key).mapM read)
    (happly : ∀ value c, o.apply value c = (read value).map (k.put · c)) :
    source.Reads (o.step lookup) k := by
  intro c
  rw [Override.step, hsource]
  cases lookup o.key with
  | none => rfl
  | some value =>
    dsimp only
    rw [happly, Option.mapM_some]
    cases read value <;> rfl

theorem mapM_some_eq {α : Type} (o : Option α) : o.mapM some = some o := by cases o <;> rfl

def variableKeys : List Key :=
  [.url, .host, .port, .username, .password, .database, .maxConnections, .timeoutSeconds, .bind]

theorem forall₂_overrides (lookup : String → Option String) :
    List.Forall₂ (environmentSource lookup).Reads (overrides.map (Override.step lookup))
      variableKeys := by
  have htext {key : String} {k : Key} {f : String → Database → Database}
      {read : String → Option k.Content}
      (hsource : environmentSource lookup k = (lookup key).mapM read)
      (happly : ∀ value c, some { c with database := f value c.database } =
        (read value).map (k.put · c)) :
      (environmentSource lookup).Reads
        (Override.step lookup ⟨key, onDatabase fun v d => some (f v d)⟩) k :=
    reads_override hsource happly
  have hnumber {key : String} {k : Key} {f : Nat → Database → Database} {bound : Nat}
      {ofNat : Nat → k.Content}
      (hsource : environmentSource lookup k =
        (lookup key).mapM fun v => (number? bound v).map ofNat)
      (happly : ∀ n c, { c with database := f n c.database } = k.put (ofNat n) c) :
      (environmentSource lookup).Reads
        (Override.step lookup ⟨key, onDatabase fun v d => (number? bound v).map (f · d)⟩) k := by
    refine reads_override hsource fun value c => ?_
    simp only [onDatabase, Option.map_map]
    exact congrArg (Option.map · _) (funext fun n => happly n c)
  exact .cons (htext (mapM_some_eq _).symm fun _ _ => rfl) <|
    .cons (htext (mapM_some_eq _).symm fun _ _ => rfl) <|
    .cons (hnumber rfl fun _ _ => rfl) <|
    .cons (htext (mapM_some_eq _).symm fun _ _ => rfl) <|
    .cons (htext (mapM_some_eq _).symm fun _ _ => rfl) <|
    .cons (htext (mapM_some_eq _).symm fun _ _ => rfl) <|
    .cons (hnumber rfl fun _ _ => rfl) <|
    .cons (hnumber rfl fun _ _ => rfl) <|
    .cons (reads_override rfl fun _ _ => rfl) .nil

section Sections

variable {σ : Type}

/-- A part of a configuration. -/
structure Part (σ : Type) where
  get : Config → σ
  set : σ → Config → Config
  get_set : ∀ x c, get (set x c) = x
  set_set : ∀ x y c, set y (set x c) = set y c
  set_get : ∀ c, set (get c) c = c

def Setting.step (part : Part σ) (entries : Table) (s : Setting σ) (c : Config) : Option Config :=
  (s.setFrom entries (part.get c)).map (part.set · c)

end Sections

section Reads

variable {σ : Type} {part : Part σ} {entries : Table} {source : Source} {name : String}
  {write : σ → Option Scalar}

end Reads

end MessageBoard.Config

namespace MessageBoard.Command

open Config

/-! ## How a command is configured -/

theorem Disk.lt_depth_of_text? {disk : Disk} {up : Nat} {text : String}
    (h : disk.text? (variablesPlace up) = some text) : up < disk.depth := by
  have hnode : disk.node? (variablesPlace up) = some (.file text) := by
    rw [text?] at h
    split at h
    · next hnode => rw [hnode, Option.some.inj h]
    · cases h
  have hnames : ¬(variablesPlace up).names.all (· = "..") = true := by
    rw [variablesPlace, List.all_append, Bool.and_eq_true]
    exact fun h => absurd h.2 (by decide)
  rw [node?, if_neg hnames, Option.map_eq_some_iff] at hnode
  obtain ⟨⟨p, node⟩, hlast, -⟩ := hnode
  obtain ⟨hmem, hp⟩ := List.mem_filter.1 (List.mem_of_getLast? hlast)
  have hlength : p.names.length = up + 1 := by
    rw [of_decide_eq_true hp, variablesPlace, List.length_append, List.length_replicate]
    rfl
  have hle : p.names.length ≤ disk.depth :=
    List.le_max_of_le (List.mem_map.2 ⟨_, hmem, rfl⟩) le_rfl
  omega

namespace Surroundings

variable {s : Surroundings} {t : Toml.Table} {c : Config}

/-- The file of variables is the nearest one, here or in a directory above. -/
theorem variablesText?_eq_some_iff {text : String} : s.variablesText? = some text ↔
    ∃ up, s.disk.text? (variablesPlace up) = some text ∧
      ∀ nearer < up, s.disk.text? (variablesPlace nearer) = none := by
  rw [variablesText?, List.range_eq_range', List.findSome?_eq_some_iff]
  constructor
  · rintro ⟨nearer, up, farther, hrange, htext, hnearer⟩
    obtain ⟨k, -, rfl, hup⟩ := List.range'_eq_append_iff.1 hrange
    obtain ⟨rfl, -, -⟩ := List.range'_eq_cons_iff.1 hup.symm
    exact ⟨_, htext, fun i hi => hnearer i (List.mem_range'_1.2 ⟨Nat.zero_le _, by omega⟩)⟩
  · rintro ⟨up, htext, hnearer⟩
    obtain ⟨farther, hdepth⟩ := Nat.exists_eq_add_of_lt (Disk.lt_depth_of_text? htext)
    refine ⟨List.range' 0 up, up, List.range' (up + 1) farther, ?_, htext, fun i hi =>
      hnearer i ?_⟩
    · rw [hdepth, Nat.add_assoc, ← List.range'_append_1, Nat.zero_add, List.range'_succ]
    · exact (List.mem_range'_1.1 hi).2.trans_eq (Nat.zero_add up)

end Surroundings

end MessageBoard.Command
