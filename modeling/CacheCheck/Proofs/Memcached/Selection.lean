import CacheCheck.Proofs.Text.Utf8
import CacheCheck.Proofs.Url.Query
import CacheCheck.Target
import Mathlib.Data.List.Forall2

/-!
Which wire the URLs of servers ask for. A URL asks for the ascii wire by a pair of its query, and
the pair is written at the end of the address, behind the mark of a query or of a further pair. So
it is part of the query where the address has no fragment, and of the fragment where it has one
(`partsOf_url`). In the first case the wire is selected, whatever else the address holds; in the
second the URL asks for the wire that the address asked for itself (`wire_of_url`).
-/

set_option autoImplicit false

namespace CacheCheck.Memcached

open Url (Parts partsOf markFor extended)

/-! ### What is asked for -/

/-- The pair of a query that asks for the ascii wire. -/
def asciiPair : List Char :=
  "protocol=ascii".toList

/-- The pairs that ask for a wire. The binary wire is the one that no pair asks for. -/
def Wire.pairs : Wire → List (List Char)
  | .binary => []
  | .ascii => [asciiPair]

def scheme : List Char :=
  "memcache".toList

/-- A server as a URL: a bare address is given a scheme. -/
def filled (server : List Char) : List Char :=
  if Url.IsFull server then server else scheme ++ "://".toList ++ server

/-- A URL is that of a server in all its parts, but for pairs at the end of its query that ask for a
wire. -/
structure Asks (wire : Wire) (server url : List Char) : Prop where
  scheme : (partsOf url).scheme = (partsOf (filled server)).scheme
  authority : (partsOf url).authority = (partsOf (filled server)).authority
  path : (partsOf url).path = (partsOf (filled server)).path
  pairs : (partsOf url).pairs = (partsOf server).pairs ++ wire.pairs
  fragment : (partsOf url).fragment = (partsOf (filled server)).fragment

/-! ### Addresses with a scheme -/

/-- A server as its URL begins. -/
def base (server : String) : List Char :=
  (Url.withScheme "memcache" server).toList

theorem base_eq (server : String) :
    base server =
      if Url.hasScheme server = true then server.toList
      else scheme ++ "://".toList ++ server.toList := by
  unfold base Url.withScheme
  split
  · rfl
  · rw [String.toList_append, String.toList_append]
    rfl

/-- A URL is a server, or has a scheme in front of it. -/
def Extends (server text : List Char) : Prop :=
  text = server ∨ text = scheme ++ "://".toList ++ server

theorem extends_base (server : String) : Extends server.toList (base server) := by
  rw [base_eq]
  split
  · exact .inl rfl
  · exact .inr rfl

theorem extends_filled (server : List Char) : Extends server (filled server) := by
  unfold filled
  split
  · exact .inl rfl
  · exact .inr rfl

theorem Extends.mem_iff {server text : List Char} (h : Extends server text) {c : Char}
    (hc : c ∉ scheme ++ "://".toList) : c ∈ text ↔ c ∈ server := by
  rcases h with rfl | rfl
  · rfl
  · rw [List.mem_append, or_iff_right hc]

theorem Extends.markFor_eq {server text : List Char} (h : Extends server text) :
    markFor server = markFor text := by
  unfold markFor
  simp only [h.mem_iff (show '?' ∉ scheme ++ "://".toList by decide)]

/-- A scheme in front changes neither the query nor the fragment. -/
theorem Extends.query_eq {server text : List Char} (h : Extends server text) :
    (partsOf text).query = (partsOf server).query ∧
      (partsOf text).fragment = (partsOf server).fragment := by
  rcases h with rfl | rfl
  · exact ⟨rfl, rfl⟩
  · rw [Url.partsOf_append_prefix (by decide) (by decide)]
    exact ⟨rfl, rfl⟩

theorem Extends.pairs_eq {server text : List Char} (h : Extends server text) :
    (partsOf text).pairs = (partsOf server).pairs := by
  rw [Parts.pairs, h.query_eq.1, Parts.pairs]

/-- A scheme that was put in front is read as one. -/
theorem partsOf_scheme (server : List Char) :
    (partsOf (scheme ++ "://".toList ++ server)).scheme = some scheme ∧
      (partsOf (scheme ++ "://".toList ++ server)).authority ≠ none := by
  rw [Url.partsOf_append_prefix (by decide) (by decide)]
  exact Url.of_scheme (by decide) (by decide) (by decide) _ _ _

/-- A URL that lacks a part is not taken for one that was filled in. -/
theorem isFull_of_parts {server : List Char}
    (hscheme : (partsOf server).scheme = (partsOf (filled server)).scheme)
    (hauthority : (partsOf server).authority = (partsOf (filled server)).authority) :
    Url.IsFull server := by
  refine Decidable.byContradiction fun hbare ↦ hbare (.inl ?_)
  rw [hscheme, hauthority, filled, if_neg hbare, (partsOf_scheme server).1]
  exact ⟨Option.some_ne_none _, (partsOf_scheme server).2⟩

/-! ### URLs -/

/-- What is behind a server in its URL. -/
def added (wire : Wire) (server : List Char) : List Char :=
  match wire with
  | .binary => []
  | .ascii => markFor server :: asciiPair

theorem url_eq (wire : Wire) (server : String) :
    (Address.url wire server).toList = base server ++ added wire server.toList := by
  cases wire with
  | binary => exact (List.append_nil _).symm
  | ascii =>
    have hmark : '?' ∈ base server ↔ '?' ∈ server.toList :=
      (extends_base server).mem_iff (by decide)
    have hcontains : (Url.withScheme "memcache" server).toList.contains '?' = true ↔
        '?' ∈ server.toList := by rw [List.contains_iff_mem]; exact hmark
    unfold Address.url added markFor
    simp only [hcontains, String.toList_append]
    split <;> exact List.append_assoc ..

/-- The parts of a URL: what is added is part of the fragment, or the last pair of the query. -/
theorem partsOf_url (wire : Wire) (server : String) :
    ('#' ∈ server.toList ∧ partsOf (Address.url wire server).toList =
        { partsOf (base server) with
          fragment := (partsOf (base server)).fragment.map (· ++ added wire server.toList) }) ∨
      ('#' ∉ server.toList ∧ ∃ query, partsOf (Address.url wire server).toList =
        { partsOf (base server) with query } ∧
          (partsOf (Address.url wire server).toList).pairs =
            (partsOf (base server)).pairs ++ wire.pairs) := by
  have hextends := extends_base server
  rw [url_eq]
  by_cases hmark : '#' ∈ server.toList
  · exact .inl ⟨hmark, Url.partsOf_append_of_mem ((hextends.mem_iff (by decide)).mpr hmark) _⟩
  right
  cases wire with
  | binary =>
    refine ⟨hmark, (partsOf (base server)).query, ?_, ?_⟩
    · rw [added, List.append_nil]
    · rw [added, List.append_nil, Wire.pairs, List.append_nil]
  | ascii =>
    have hparts := Url.partsOf_extend (mt (hextends.mem_iff (by decide)).mp hmark)
      (show '#' ∉ asciiPair by decide)
    rw [added, hextends.markFor_eq, hparts]
    exact ⟨hmark, _, rfl, Url.pairs_extend _ (by decide) (by decide)⟩

/-! ### What is read -/

/-- The pairs that are found in a URL when it is read. -/
def readPairs (text : List Char) : List (String × String) :=
  Percent.formPairs (String.ofList ((partsOf (Url.clean text)).query.getD []))

theorem wire_of_ofUrl {text : String} {address : Address} (h : Address.ofUrl text = .ok address) :
    address.wire = .ascii ↔ ("protocol", "ascii") ∈ readPairs text.toList := by
  unfold Address.ofUrl at h
  split at h
  · cases h
  · next url hparse =>
    split at h <;> cases h
    have hquery : url.query.getD "" =
        String.ofList ((partsOf (Url.clean text.toList)).query.getD []) := by
      rw [Url.query_of_parse hparse]
      cases (partsOf (Url.clean text.toList)).query <;> rfl
    rw [readPairs, ← hquery, ← Url.parameters, ← List.contains_iff_mem]
    split <;> simp_all

theorem formPairs_asciiPair :
    Percent.formPairs (String.ofList asciiPair) = [("protocol", "ascii")] := by
  have hparts : ((Utf8.encode (String.ofList asciiPair)).splitOn 0x26).filter (!·.isEmpty) =
      [Utf8.encode "protocol=ascii"] := by decide
  have hname : Percent.decode ((Utf8.encode "protocol").map fun b ↦ if b = 0x2B then 0x20 else b) =
      Utf8.encode "protocol" := by decide
  have hvalue : Percent.decode ((Utf8.encode "ascii").map fun b ↦ if b = 0x2B then 0x20 else b) =
      Utf8.encode "ascii" := by decide
  have hcut : Percent.cut 0x3D (Utf8.encode "protocol=ascii") =
      (Utf8.encode "protocol", Utf8.encode "ascii") := by decide
  simp only [Percent.formPairs, hparts, List.map_cons, List.map_nil, hcut, Percent.formText, hname,
    hvalue, Utf8.decodeLossy_encode]

theorem formPairs_append (front behind : List Char) :
    Percent.formPairs (String.ofList (front ++ '&' :: behind)) =
      Percent.formPairs (String.ofList front) ++ Percent.formPairs (String.ofList behind) := by
  have hencode : Utf8.encode (String.ofList (front ++ '&' :: behind)) =
      Utf8.encode (String.ofList front) ++ 0x26 :: Utf8.encode (String.ofList behind) := by
    simp only [Utf8.encode, String.toList_ofList, List.flatMap_append, List.flatMap_cons]
    rfl
  have hsplit (first second : List UInt8) :
      (first ++ 0x26 :: second).splitOn 0x26 = first.splitOn 0x26 ++ second.splitOn 0x26 :=
    List.splitOnP_append_cons first second (beq_self_eq_true 0x26)
  simp only [Percent.formPairs, hencode, hsplit, List.filter_append, List.map_append]

/-- The pair is read as it was meant, whatever is in front of it. -/
theorem mem_formPairs_extended (query : Option (List Char)) :
    ("protocol", "ascii") ∈ Percent.formPairs (String.ofList (extended query asciiPair)) := by
  cases query with
  | none =>
    rw [extended, formPairs_asciiPair]
    exact List.mem_singleton_self _
  | some query =>
    rw [extended, formPairs_append, formPairs_asciiPair]
    exact List.mem_append_right _ (List.mem_singleton_self _)

/-- What is in a fragment is not read. -/
theorem readPairs_append_mark {page : List Char} (h : '#' ∉ page) (behind : List Char) :
    readPairs (page ++ '#' :: behind) =
      Percent.formPairs (String.ofList ((partsOf (Url.cleanFront page)).query.getD [])) := by
  rw [readPairs, Url.clean_append_cons rfl,
    Url.partsOf_append_mark (mt (Url.mem_cleanFront rfl).mp h)]

/-- A pair at the end of a query is read with the query, but for the blanks in front of it. -/
theorem readPairs_extend {text : List Char} (h : '#' ∉ text) :
    readPairs (text ++ markFor text :: asciiPair) =
      Percent.formPairs
        (String.ofList (extended (partsOf (Url.cleanFront text)).query asciiPair)) := by
  have hedge : Url.isEdge (markFor text) = false := by
    unfold markFor
    split <;> rfl
  have hmark : markFor text = markFor (Url.cleanFront text) := by
    unfold markFor
    simp only [Url.mem_cleanFront (show Url.isEdge '?' = false from rfl)]
  have hpair : Url.cleanBehind asciiPair = asciiPair := by decide
  rw [readPairs, Url.clean_append_cons hedge, hpair, hmark,
    Url.partsOf_extend (mt (Url.mem_cleanFront rfl).mp h) (by decide)]
  rfl

/-- The wire is selected where the address has no fragment. Where it has one, the URL says no more
than the address did. -/
theorem mem_readPairs_url (wire : Wire) (server : String) :
    ("protocol", "ascii") ∈ readPairs (Address.url wire server).toList ↔
      wire = .ascii ∧ '#' ∉ server.toList ∨ ("protocol", "ascii") ∈ readPairs (base server) := by
  have hextends := extends_base server
  rw [url_eq]
  cases wire with
  | binary => simp [added]
  | ascii =>
    by_cases hmark : '#' ∈ server.toList
    · obtain ⟨page, behind, hbase, hpage⟩ :=
        List.eq_append_cons_of_mem ((hextends.mem_iff (by decide)).mpr hmark)
      rw [hbase, List.append_assoc, List.cons_append, readPairs_append_mark hpage,
        readPairs_append_mark hpage]
      simp [hmark]
    · have hpair := mem_formPairs_extended (partsOf (Url.cleanFront (base server))).query
      rw [← readPairs_extend (mt (hextends.mem_iff (by decide)).mp hmark)] at hpair
      rw [added, hextends.markFor_eq]
      exact iff_of_true hpair (.inl ⟨rfl, hmark⟩)

/-! ### Whole URLs -/

theorem Wire.mem_pairs_iff {wire : Wire} : asciiPair ∈ wire.pairs ↔ wire = .ascii := by
  cases wire with
  | binary => exact iff_of_false List.not_mem_nil Wire.noConfusion
  | ascii => exact iff_of_true (List.mem_singleton_self _) rfl

theorem base_eq_filled {server : String}
    (h : Url.hasScheme server = true → Url.IsFull server.toList) :
    base server = filled server.toList := by
  rw [base_eq, filled]
  by_cases hscheme : Url.hasScheme server = true
  · rw [if_pos hscheme, if_pos (h hscheme)]
  · rw [if_neg hscheme, if_neg (mt Url.hasScheme_of_isFull hscheme)]

theorem url_front (wire : Wire) (server : String) :
    (partsOf (Address.url wire server).toList).scheme = (partsOf (base server)).scheme ∧
      (partsOf (Address.url wire server).toList).authority = (partsOf (base server)).authority ∧
      (partsOf (Address.url wire server).toList).path = (partsOf (base server)).path := by
  rcases partsOf_url wire server with ⟨-, hparts⟩ | ⟨-, query, hparts, -⟩
  all_goals simp only [hparts, and_self]

theorem url_pairs (wire : Wire) (server : String) :
    (partsOf (Address.url wire server).toList).pairs =
      (partsOf server.toList).pairs ++ if '#' ∈ server.toList then [] else wire.pairs := by
  have hextends := extends_base server
  rcases partsOf_url wire server with ⟨hmark, hparts⟩ | ⟨hmark, -, -, hpairs⟩
  · rw [hparts, if_pos hmark, List.append_nil, Url.pairs_fragment, hextends.pairs_eq]
  · rw [hpairs, if_neg hmark, hextends.pairs_eq]

theorem url_fragment (wire : Wire) (server : String) :
    (partsOf (Address.url wire server).toList).fragment =
      (partsOf server.toList).fragment.map (· ++ added wire server.toList) := by
  have hextends := extends_base server
  rcases partsOf_url wire server with ⟨-, hparts⟩ | ⟨hmark, query, hparts, -⟩
  · simp only [hparts, hextends.query_eq.2]
  · simp only [hparts, hextends.query_eq.2, Url.fragment_of_not_mem hmark, Option.map_none]

theorem mem_url_pairs (wire : Wire) (server : String) :
    asciiPair ∈ (partsOf (Address.url wire server).toList).pairs ↔
      wire = .ascii ∧ '#' ∉ server.toList ∨ asciiPair ∈ (partsOf server.toList).pairs := by
  rw [url_pairs, List.mem_append, or_comm]
  by_cases hmark : '#' ∈ server.toList <;> simp [hmark, Wire.mem_pairs_iff]

/-- A URL says what was asked for unless it is misled, by a fragment or by the address. -/
theorem asks_url_iff (wire : Wire) (server : String) :
    Asks wire server.toList (Address.url wire server).toList ↔
      (wire = .ascii → '#' ∉ server.toList) ∧
        (Url.hasScheme server = true → Url.IsFull server.toList) := by
  obtain ⟨hscheme, hauthority, hpath⟩ := url_front wire server
  have hpairs := url_pairs wire server
  have hfragment := url_fragment wire server
  refine ⟨fun hasks ↦ ⟨?_, fun hlooks ↦ ?_⟩, fun ⟨hmark, hfull⟩ ↦ ?_⟩
  · rintro rfl hmark
    have hnone := List.append_cancel_left (hpairs.symm.trans hasks.pairs)
    rw [if_pos hmark] at hnone
    cases hnone
  · have hbase : base server = server.toList := by rw [base_eq, if_pos hlooks]
    rw [hbase] at hscheme hauthority
    exact isFull_of_parts (hscheme.symm.trans hasks.scheme) (hauthority.symm.trans hasks.authority)
  · rw [base_eq_filled hfull] at hscheme hauthority hpath
    have hsame : (partsOf (filled server.toList)).fragment = (partsOf server.toList).fragment :=
      (extends_filled server.toList).query_eq.2
    refine ⟨hscheme, hauthority, hpath, ?_, ?_⟩
    · rw [hpairs]
      cases wire with
      | binary => simp [Wire.pairs]
      | ascii => rw [if_neg (hmark rfl)]
    · rw [hfragment, hsame]
      cases wire with
      | binary => simp [added]
      | ascii =>
        rw [Url.fragment_of_not_mem (hmark rfl)]
        rfl

/-! ### Lists of servers -/

/-- What the URL of a server asks for. -/
structure Selects (wire : Wire) (server url : String) : Prop where
  scheme : (partsOf url.toList).scheme = (partsOf (base server)).scheme
  authority : (partsOf url.toList).authority = (partsOf (base server)).authority
  path : (partsOf url.toList).path = (partsOf (base server)).path
  /-- The pairs of the server, and those that ask for the wire, if there is no fragment. -/
  pairs : (partsOf url.toList).pairs =
    (partsOf server.toList).pairs ++ if '#' ∈ server.toList then [] else wire.pairs
  /-- What is added behind a fragment is part of it. -/
  fragment : (partsOf url.toList).fragment =
    (partsOf server.toList).fragment.map (· ++ added wire server.toList)
  pair_mem : asciiPair ∈ (partsOf url.toList).pairs ↔
    wire = .ascii ∧ '#' ∉ server.toList ∨ asciiPair ∈ (partsOf server.toList).pairs
  /-- There are two ways to be misled: a fragment, and an address that looks like a URL. -/
  asks_iff : Asks wire server.toList url.toList ↔
    (wire = .ascii → '#' ∉ server.toList) ∧
      (Url.hasScheme server = true → Url.IsFull server.toList)
  /-- The wire that is spoken, if the URL can be read. -/
  spoken {address : Address} (h : Address.ofUrl url = .ok address) :
    address.wire = .ascii ↔
      wire = .ascii ∧ '#' ∉ server.toList ∨ ("protocol", "ascii") ∈ readPairs (base server)

theorem url_selects (wire : Wire) (server : String) :
    Selects wire server (Address.url wire server) where
  scheme := (url_front wire server).1
  authority := (url_front wire server).2.1
  path := (url_front wire server).2.2
  pairs := url_pairs wire server
  fragment := url_fragment wire server
  pair_mem := mem_url_pairs wire server
  asks_iff := asks_url_iff wire server
  spoken h := (wire_of_ofUrl h).trans (mem_readPairs_url wire server)

/-- There is a URL for each server, in order. -/
theorem urls_selects (servers : Memcached.Servers) (h : servers.servers ≠ []) :
    ∃ urls, servers.urls = .ok urls ∧
      List.Forall₂ (Selects servers.wire) servers.servers urls := by
  refine ⟨servers.servers.map (Address.url servers.wire), ?_, ?_⟩
  · rw [Memcached.Servers.urls, if_neg (by simpa using h)]
  · rw [List.forall₂_map_right_iff]
    exact List.forall₂_same.mpr fun server _ ↦ url_selects servers.wire server

theorem urls_selects_two :
    ["cache:11211?tcp_nodelay=true", "memcache://127.0.0.1:11211"] ≠ [] ∧
      ∃ urls, Memcached.Servers.urls
          { servers := ["cache:11211?tcp_nodelay=true", "memcache://127.0.0.1:11211"]
            wire := .ascii } = .ok urls ∧
        List.Forall₂ (Selects .ascii)
          ["cache:11211?tcp_nodelay=true", "memcache://127.0.0.1:11211"] urls :=
  ⟨List.cons_ne_nil _ _, urls_selects
    { servers := ["cache:11211?tcp_nodelay=true", "memcache://127.0.0.1:11211"], wire := .ascii }
    (List.cons_ne_nil _ _)⟩

/-- The ascii wire is asked for at an address with a fragment, and the other one is spoken. -/
theorem fragment_takes_pair :
    Memcached.Servers.urls { servers := ["127.0.0.1:11211#a"], wire := .ascii } =
        .ok ["memcache://127.0.0.1:11211#a?protocol=ascii"] ∧
      ¬ Asks .ascii "127.0.0.1:11211#a".toList
        "memcache://127.0.0.1:11211#a?protocol=ascii".toList ∧
      Address.ofUrl "memcache://127.0.0.1:11211#a?protocol=ascii" =
        .ok ⟨.network "127.0.0.1" 11211, .binary⟩ := by
  refine ⟨rfl, fun hasks ↦ ?_, rfl⟩
  have hnone : (partsOf "memcache://127.0.0.1:11211#a?protocol=ascii".toList).pairs = [] := by
    decide
  have hsome : asciiPair ∈ (partsOf "127.0.0.1:11211#a".toList).pairs ++ Wire.pairs .ascii := by
    decide
  rw [← hasks.pairs, hnone] at hsome
  cases hsome

end CacheCheck.Memcached
