import Mathlib
import MessageBoard.Net.SocketAddress
import MessageBoard.Proofs.Cuts
import MessageBoard.Proofs.Numerals

/-!
# Socket addresses read back

A written address is cut where it was joined, and every piece is read as the number it was. In an
address of eight groups no two colons meet but where a run of zeros was left out: that is where the
address is cut first, and the zeros are what is missing of the eight groups.
-/

namespace MessageBoard

namespace Net

open Text

/-! ## Four octets -/

namespace Ip4

theorem notMem_decimal {c : Char} (hc : c.isDigit = false) (n : Nat) : c ∉ decimal n := by
  intro hmem
  exact Bool.false_ne_true (hc.symm.trans (isDigit_of_mem_decimal hmem))

theorem octet?_decimal (n : UInt8) : octet? (decimal n.toNat) = some n := by
  have hn : n.toNat < 256 := n.toNat_lt
  have hlength : (decimal n.toNat).length ≤ 3 :=
    (Nat.length_toDigits_le_iff (by decide) (by decide)).2 (by omega)
  have hlead : ¬ (decimal n.toNat = [] ∨ 3 < (decimal n.toNat).length ∨
      (decimal n.toNat).head? = some '0' ∧ 1 < (decimal n.toNat).length) := by
    rintro (hnil | hlong | ⟨hzero, hlong⟩)
    · exact decimal_ne_nil _ hnil
    · omega
    · by_cases h0 : n.toNat = 0
      · rw [h0] at hlong
        exact absurd hlong (by decide)
      · exact head?_decimal h0 hzero
  rw [octet?, if_neg hlead, decimal, ofDigits?_toDigits (by decide) (by decide), Option.bind_some,
    if_pos hn, UInt8.ofNat_toNat]

theorem pieces_chars (ip : Ip4) :
    pieces '.' ip.chars =
      [decimal ip.a.toNat, decimal ip.b.toNat, decimal ip.c.toNat, decimal ip.d.toNat] := by
  have hpoint (n : Nat) : '.' ∉ decimal n := notMem_decimal (by decide) n
  simp only [chars, List.append_assoc, List.cons_append]
  rw [pieces_joined (hpoint _), pieces_joined (hpoint _), pieces_joined (hpoint _),
    pieces_of_notMem (hpoint _)]

theorem ofChars?_chars (ip : Ip4) : ofChars? ip.chars = some ip := by
  rw [ofChars?, pieces_chars]
  simp only [octet?_decimal, bind, Option.bind]
  rfl

theorem notMem_chars {c : Char} (hc : c.isDigit = false) (hpoint : c ≠ '.') (ip : Ip4) :
    c ∉ ip.chars := by
  have hdecimal (n : Nat) : c ∉ decimal n := notMem_decimal hc n
  simp [chars, hdecimal, hpoint]

theorem ofGroups_high (high low : UInt16) : (ofGroups high low).high = high := by
  have hhigh : high.toNat < 2 ^ 16 := high.toNat_lt
  have hvalue : 256 * (high.toNat / 256 % 256) + high.toNat % 256 % 256 = high.toNat := by omega
  simp only [Ip4.high, ofGroups, UInt8.toNat_ofNat']
  rw [hvalue, UInt16.ofNat_toNat]

theorem ofGroups_low (high low : UInt16) : (ofGroups high low).low = low := by
  have hlow : low.toNat < 2 ^ 16 := low.toNat_lt
  have hvalue : 256 * (low.toNat / 256 % 256) + low.toNat % 256 % 256 = low.toNat := by omega
  simp only [Ip4.low, ofGroups, UInt8.toNat_ofNat']
  rw [hvalue, UInt16.ofNat_toNat]

end Ip4

/-! ## Eight groups -/

namespace Ip6

variable {g g' : UInt16} {gs : List UInt16}

theorem groupChars_ne_nil (g : UInt16) : groupChars g ≠ [] := Nat.toDigits_ne_nil

theorem isHex_of_mem_groupChars {c : Char} (hc : c ∈ groupChars g) : (digit? 16 c).isSome = true :=
  isSome_digit?_of_mem_toDigits (by decide) (by decide) hc

theorem notMem_groupChars {c : Char} (hc : (digit? 16 c).isSome = false) (g : UInt16) :
    c ∉ groupChars g := by
  intro hmem
  exact Bool.false_ne_true (hc.symm.trans (isHex_of_mem_groupChars hmem))

theorem group?_groupChars (g : UInt16) : group? (groupChars g) = some g := by
  have hlength : (groupChars g).length ≤ 4 :=
    (Nat.length_toDigits_le_iff (by decide) (by decide)).2 g.toNat_lt
  have hlead : ¬ (groupChars g = [] ∨ 4 < (groupChars g).length) := by
    rintro (hnil | hlong)
    · exact groupChars_ne_nil g hnil
    · omega
  rw [group?, if_neg hlead, groupChars, ofDigits?_toDigits (by decide) (by decide),
    Option.map_some, UInt16.ofNat_toNat]

theorem joined_singleton (g : UInt16) : joined [g] = groupChars g := List.intercalate_singleton

theorem joined_cons_cons (g g' : UInt16) (gs : List UInt16) :
    joined (g :: g' :: gs) = groupChars g ++ ':' :: joined (g' :: gs) := by
  simp [joined, List.intercalate_cons_cons]

theorem joined_ne_nil (g : UInt16) (gs : List UInt16) : joined (g :: gs) ≠ [] := by
  cases gs with
  | nil =>
    rw [joined_singleton]
    exact groupChars_ne_nil g
  | cons g' gs =>
    rw [joined_cons_cons]
    simp

theorem notMem_joined {c : Char} (hc : (digit? 16 c).isSome = false) (hcolon : c ≠ ':')
    (gs : List UInt16) : c ∉ joined gs := by
  induction gs with
  | nil => exact List.not_mem_nil
  | cons g gs ih =>
    cases gs with
    | nil =>
      rw [joined_singleton]
      exact notMem_groupChars hc g
    | cons g' gs =>
      rw [joined_cons_cons, List.mem_append, List.mem_cons]
      rintro (h | h | h)
      · exact notMem_groupChars hc g h
      · exact hcolon h
      · exact ih h

theorem pieces_joined_groups (g : UInt16) (gs : List UInt16) :
    pieces ':' (joined (g :: gs)) = (g :: gs).map groupChars := by
  have hcolon (g : UInt16) : ':' ∉ groupChars g := notMem_groupChars (by decide) g
  induction gs generalizing g with
  | nil =>
    rw [joined_singleton, pieces_of_notMem (hcolon g)]
    rfl
  | cons g' gs ih =>
    rw [joined_cons_cons, pieces_joined (hcolon g), ih]
    rfl

theorem groupPieces_joined (gs : List UInt16) : groupPieces (joined gs) = gs.map groupChars := by
  cases gs with
  | nil => rfl
  | cons g gs => rw [groupPieces, if_neg (joined_ne_nil g gs), pieces_joined_groups]

theorem mapM_group? (gs : List UInt16) : (gs.map groupChars).mapM group? = some gs := by
  induction gs with
  | nil => rfl
  | cons g gs ih =>
    rw [List.map_cons, List.mapM_cons, group?_groupChars, ih]
    rfl

theorem ofPieces?_groups (gs : List UInt16) : ofPieces? (gs.map groupChars) = some gs := by
  induction gs with
  | nil => rfl
  | cons g gs ih =>
    cases gs with
    | nil => rw [List.map_cons, List.map_nil, ofPieces?, group?_groupChars]
    | cons g' gs =>
      rw [List.map_cons, ofPieces?, group?_groupChars, ih]
      · rfl
      · exact List.cons_ne_nil _ _

/-! ### Colons that meet -/

def Apart (cs : List Char) : Prop := cs.IsChain fun x y => ¬ (x = ':' ∧ y = ':')

theorem Apart.not_within {cs : List Char} (h : Apart cs) : ¬ [':', ':'] <:+: cs := by
  intro hwithin
  have hpair := List.IsChain.infix h hwithin
  simp at hpair

theorem Apart.of_notMem {cs : List Char} (hcs : ':' ∉ cs) : Apart cs := by
  induction cs with
  | nil => exact List.isChain_nil
  | cons c cs ih =>
    cases cs with
    | nil => exact List.isChain_singleton c
    | cons d cs =>
      have hc : c ≠ ':' := (List.ne_of_not_mem_cons hcs).symm
      exact List.isChain_cons_cons.2
        ⟨fun h => hc h.1, ih (List.not_mem_of_not_mem_cons hcs)⟩

theorem Apart.append {cs ds : List Char} (hcs : ':' ∉ cs) (hds : Apart ds)
    (hhead : ds.head? ≠ some ':') : Apart (cs ++ ':' :: ds) := by
  refine List.isChain_append.2 ⟨Apart.of_notMem hcs, ?_, ?_⟩
  · cases ds with
    | nil => exact List.isChain_singleton ':'
    | cons d ds =>
      refine List.isChain_cons_cons.2 ⟨fun h => ?_, hds⟩
      exact hhead (congrArg some h.2)
  · rintro x hx y - ⟨rfl, -⟩
    exact hcs (List.mem_of_getLast? hx)

theorem head?_joined (gs : List UInt16) : (joined gs).head? ≠ some ':' := by
  have hgroup (g : UInt16) (rest : List Char) : (groupChars g ++ rest).head? ≠ some ':' := by
    obtain ⟨d, ds, hcons⟩ := List.exists_cons_of_ne_nil (groupChars_ne_nil g)
    have hd : d ∈ groupChars g := hcons ▸ List.mem_cons_self
    rw [hcons]
    rintro h
    rw [Option.some.inj h] at hd
    exact notMem_groupChars (by decide) g hd
  cases gs with
  | nil => exact nofun
  | cons g gs =>
    cases gs with
    | nil =>
      have hone := hgroup g []
      rwa [List.append_nil, ← joined_singleton] at hone
    | cons g' gs =>
      rw [joined_cons_cons]
      exact hgroup g _

theorem apart_joined (g : UInt16) (gs : List UInt16) : Apart (joined (g :: gs) ++ [':']) := by
  have hcolon (g : UInt16) : ':' ∉ groupChars g := notMem_groupChars (by decide) g
  induction gs generalizing g with
  | nil =>
    rw [joined_singleton]
    exact Apart.append (hcolon g) List.isChain_nil nofun
  | cons g' gs ih =>
    rw [joined_cons_cons, List.append_assoc, List.cons_append]
    refine Apart.append (hcolon g) (ih g') ?_
    have hhead := head?_joined (g' :: gs)
    obtain ⟨d, ds, hcons⟩ := List.exists_cons_of_ne_nil (joined_ne_nil g' gs)
    rw [hcons] at hhead ⊢
    exact hhead

theorem cutFirst?_groups (gs : List UInt16) (rest : List Char) :
    cutFirst? [':', ':'] (joined gs ++ ':' :: ':' :: rest) = some (joined gs, rest) := by
  refine cutFirst?_joined (List.cons_ne_nil _ _) ?_
  cases gs with
  | nil => exact fun h => absurd h.length_le (by decide)
  | cons g gs => exact (apart_joined g gs).not_within

theorem cutFirst?_groups_eq_none (gs : List UInt16) : cutFirst? [':', ':'] (joined gs) = none := by
  apply cutFirst?_eq_none
  cases gs with
  | nil => exact fun h => absurd h.length_le (by decide)
  | cons g gs =>
    exact fun h => (apart_joined g gs).not_within (h.trans (List.prefix_append _ _).isInfix)

/-! ### Zeros left out -/

theorem zeros_le (gs : List UInt16) : zeros gs ≤ gs.length :=
  (List.takeWhile_prefix _).length_le

theorem take_zeros (gs : List UInt16) : gs.take (zeros gs) = List.replicate (zeros gs) 0 := by
  have hzero : ∀ g ∈ gs.takeWhile (· = 0), g = 0 := fun g hg => by
    simpa using List.mem_takeWhile_imp hg
  rw [zeros, ← List.prefix_iff_eq_take.1 (List.takeWhile_prefix _)]
  exact List.eq_replicate_iff.2 ⟨rfl, hzero⟩

/-- Where a longest run is said to be, there are zeros and nothing else. -/
theorem longestZeros_spec (gs : List UInt16) :
    (longestZeros gs).1 + (longestZeros gs).2 ≤ gs.length ∧
      (gs.drop (longestZeros gs).1).take (longestZeros gs).2 =
        List.replicate (longestZeros gs).2 0 := by
  induction gs with
  | nil => exact ⟨le_rfl, rfl⟩
  | cons g gs ih =>
    by_cases hhere : (longestZeros gs).2 ≤ zeros (g :: gs)
    · simp only [longestZeros, if_pos hhere]
      refine ⟨?_, take_zeros (g :: gs)⟩
      rw [Nat.zero_add]
      exact zeros_le (g :: gs)
    · simp only [longestZeros, if_neg hhere]
      refine ⟨?_, ?_⟩
      · rw [List.length_cons]
        omega
      · rw [List.drop_succ_cons]
        exact ih.2

theorem fill?_around {gs : List UInt16} (hsize : gs.length = 8) {start size : Nat}
    (hpos : 0 < size) (hbound : start + size ≤ gs.length)
    (hzeros : (gs.drop start).take size = List.replicate size 0) :
    fill? (gs.take start) (gs.drop (start + size)) = some ⟨gs, hsize⟩ := by
  have hlength : (gs.take start).length + (gs.drop (start + size)).length = 8 - size := by
    rw [List.length_take, List.length_drop]
    omega
  have hwhole : gs.take start ++ List.replicate size 0 ++ gs.drop (start + size) = gs := by
    rw [← hzeros, ← List.drop_drop, List.append_assoc, List.take_append_drop,
      List.take_append_drop]
  have hmissing : 8 - (8 - size) = size := by omega
  rw [fill?, dif_pos (by omega)]
  simp only [hlength, hmissing, hwhole]

theorem ofChars?_compressed {gs : List UInt16} (hsize : gs.length = 8) {start size : Nat}
    (hpos : 0 < size) (hbound : start + size ≤ gs.length)
    (hzeros : (gs.drop start).take size = List.replicate size 0) :
    ofChars? (joined (gs.take start) ++ ':' :: ':' :: joined (gs.drop (start + size))) =
      some ⟨gs, hsize⟩ := by
  rw [ofChars?, cutFirst?_groups]
  simp only [groupPieces_joined, mapM_group?, ofPieces?_groups, bind, Option.bind]
  exact fill?_around hsize hpos hbound hzeros

theorem ofChars?_joined {gs : List UInt16} (hsize : gs.length = 8) :
    ofChars? (joined gs) = some ⟨gs, hsize⟩ := by
  rw [ofChars?, cutFirst?_groups_eq_none]
  simp only [groupPieces_joined, ofPieces?_groups, Option.bind_some, dif_pos hsize]

theorem eq_of_mapped? {ip : Ip6} {ip4 : Ip4} (h : ip.mapped? = some ip4) :
    ip.groups = [0, 0, 0, 0, 0, 0xFFFF, ip4.high, ip4.low] := by
  rw [mapped?] at h
  split at h
  · rename_i high low hgroups
    rw [← Option.some.inj h, Ip4.ofGroups_high, Ip4.ofGroups_low, hgroups]
  · exact nomatch h

theorem group?_octets (ip : Ip4) : group? ip.chars = none := by
  have hlength : 4 < ip.chars.length := by
    have hone (n : Nat) : 0 < (decimal n).length := List.length_pos_iff.2 (decimal_ne_nil n)
    have ha := hone ip.a.toNat
    have hb := hone ip.b.toNat
    have hc := hone ip.c.toNat
    have hd := hone ip.d.toNat
    simp only [Ip4.chars, List.length_append, List.length_cons]
    omega
  rw [group?, if_pos (.inr hlength)]

theorem ofChars?_mapped {ip : Ip6} {ip4 : Ip4} (h : ip.mapped? = some ip4) :
    ofChars? ("::ffff:".toList ++ ip4.chars) = some ip := by
  have hcolon : ':' ∉ ip4.chars := Ip4.notMem_chars (by decide) (by decide) ip4
  have hcut : cutFirst? [':', ':'] ("::ffff:".toList ++ ip4.chars) =
      some ([], "ffff:".toList ++ ip4.chars) := rfl
  have hpieces : groupPieces ("ffff:".toList ++ ip4.chars) = ["ffff".toList, ip4.chars] := by
    have hfirst : pieces ':' ("ffff".toList ++ ':' :: ip4.chars) = _ :=
      pieces_joined (by decide) ip4.chars
    rw [pieces_of_notMem hcolon] at hfirst
    exact hfirst
  have hgroups : ofPieces? ["ffff".toList, ip4.chars] = some [0xFFFF, ip4.high, ip4.low] := by
    have hlast : ofPieces? [ip4.chars] = some [ip4.high, ip4.low] := by
      rw [ofPieces?, group?_octets, Ip4.ofChars?_chars]
      rfl
    rw [ofPieces?, hlast]
    · rfl
    · exact List.cons_ne_nil _ _
  have hgs := eq_of_mapped? h
  obtain ⟨gs, hsize⟩ := ip
  subst hgs
  rw [ofChars?, hcut]
  simp only [hpieces, hgroups, bind, Option.bind]
  rfl

theorem ofChars?_chars (ip : Ip6) : ofChars? ip.chars = some ip := by
  rw [chars]
  cases hmapped : ip.mapped? with
  | some ip4 => exact ofChars?_mapped hmapped
  | none =>
    obtain ⟨hbound, hzeros⟩ := longestZeros_spec ip.groups
    by_cases hlong : 1 < (longestZeros ip.groups).2
    · simp only [if_pos hlong]
      exact ofChars?_compressed ip.size (by omega) hbound hzeros
    · simp only [if_neg hlong]
      exact ofChars?_joined ip.size

theorem notMem_chars {c : Char} (hc : (digit? 16 c).isSome = false) (hdigit : c.isDigit = false)
    (hpoint : c ≠ '.') (hcolon : c ≠ ':') (ip : Ip6) : c ∉ ip.chars := by
  have hf : c ≠ 'f' := by
    rintro rfl
    exact absurd hc (by decide)
  rw [chars]
  cases ip.mapped? with
  | some ip4 =>
    have hoctets := Ip4.notMem_chars hdigit hpoint ip4
    simp [hf, hcolon, hoctets]
  | none =>
    have hjoined := notMem_joined hc hcolon
    dsimp only
    split
    · simp [hjoined, hcolon]
    · exact hjoined _

end Ip6

/-! ## Sockets -/

namespace SocketAddress

theorem number?_decimal {bound n : Nat} (hn : n < bound) : number? bound (decimal n) = some n := by
  rw [number?, if_neg (decimal_ne_nil n), decimal, ofDigits?_toDigits (by decide) (by decide),
    Option.bind_some, if_pos hn]

theorem port?_decimal (port : UInt16) : port? (decimal port.toNat) = some port := by
  rw [port?, number?_decimal port.toNat_lt, Option.map_some, UInt16.ofNat_toNat]

theorem ofChars?_v4 (ip : Ip4) (port : UInt16) :
    ofChars? (ip.chars ++ ':' :: decimal port.toNat) = some ⟨.v4 ip, port⟩ := by
  have hcolon : ':' ∉ ip.chars := Ip4.notMem_chars (by decide) (by decide) ip
  have hbracket : ∀ cs, ip.chars ++ ':' :: decimal port.toNat ≠ '[' :: cs := by
    intro cs h
    have hmem : '[' ∈ ip.chars ++ ':' :: decimal port.toNat := h ▸ List.mem_cons_self
    rcases List.mem_append.1 hmem with hmem | hmem
    · exact Ip4.notMem_chars (by decide) (by decide) ip hmem
    · rcases List.mem_cons.1 hmem with h | hmem
      · exact absurd h (by decide)
      · exact Ip4.notMem_decimal (by decide) _ hmem
  rw [ofChars?, cutFirst?_char hcolon]
  · simp only [Ip4.ofChars?_chars, port?_decimal, bind, Option.bind]
    rfl
  · exact hbracket

theorem v6?_chars (ip : Ip6) (zone : UInt32) :
    v6? (ip.chars ++ (if zone = 0 then [] else '%' :: decimal zone.toNat)) =
      some (.v6 ip zone) := by
  have hpercent : '%' ∉ ip.chars :=
    Ip6.notMem_chars (by decide) (by decide) (by decide) (by decide) ip
  by_cases hzone : zone = 0
  · rw [if_pos hzone, List.append_nil, v6?, cutFirst?_eq_none (not_within_of_notMem hpercent),
      hzone]
    simp only [Ip6.ofChars?_chars, Option.map_some]
  · rw [if_neg hzone, v6?, cutFirst?_char hpercent]
    simp only [Ip6.ofChars?_chars, number?_decimal zone.toNat_lt, bind, Option.bind,
      UInt32.ofNat_toNat]
    rfl

theorem ofChars?_v6 (ip : Ip6) (zone : UInt32) (port : UInt16) :
    ofChars? (hostChars (.v6 ip zone) ++ ':' :: decimal port.toNat) =
      some ⟨.v6 ip zone, port⟩ := by
  have hbracket : ']' ∉ ip.chars ++ (if zone = 0 then [] else '%' :: decimal zone.toNat) := by
    have hchars : ']' ∉ ip.chars :=
      Ip6.notMem_chars (by decide) (by decide) (by decide) (by decide) ip
    have hzone : ']' ∉ decimal zone.toNat := Ip4.notMem_decimal (by decide) _
    split <;> simp [hchars, hzone]
  have honce : ']' ∉ [':'] := by decide
  have hcut := cutFirst?_of_not_within honce (not_within_of_notMem hbracket) (decimal port.toNat)
  have hshape : hostChars (.v6 ip zone) ++ ':' :: decimal port.toNat =
      '[' :: (ip.chars ++ (if zone = 0 then [] else '%' :: decimal zone.toNat) ++
        ']' :: ([':'] ++ decimal port.toNat)) := by
    simp [hostChars]
  rw [hshape, ofChars?, hcut]
  simp only [v6?_chars, port?_decimal, bind, Option.bind]
  rfl

/-- Every address is read as it was written. -/
theorem ofText?_toText (a : SocketAddress) : ofText? a.toText = some a := by
  obtain ⟨host, port⟩ := a
  rw [ofText?, toText, String.toList_ofList]
  cases host with
  | v4 ip => exact ofChars?_v4 ip port
  | v6 ip zone => exact ofChars?_v6 ip zone port

end SocketAddress

end Net

end MessageBoard
