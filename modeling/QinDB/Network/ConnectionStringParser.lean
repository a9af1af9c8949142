/-
# Network.ConnectionStringParser — the parameters of a connection

`connection_string_parser.cpp`: the scheme, the host up to a colon or a question mark, the port,
and parameters that the expression `([^&=]+)=([^&]*)` finds one after the other. That the part in
front of the question mark is not empty is checked, but not that the host is.

* `globalMatch_param`: a parameter at the front is found, whatever its value has but `&`.
* `parse_connectionString`: parameters that are written out are read back.
* `parse_exact_iff`: what is accepted has a host without separators and a port, if and only if no
  colon follows the scheme.
* `missingHost_accepted`: a string without a host that is accepted.
-/
import QinDB.Base.Span
import QinDB.Storage.Texts

namespace QinDB.Network

open QinDB.Base QinDB.Base.Numerals QinDB.Storage

set_option autoImplicit false

abbrev colon : UInt16 := 0x3a
abbrev question : UInt16 := 0x3f
abbrev ampersand : UInt16 := 0x26
abbrev equals : UInt16 := 0x3d

/-! ## The parser -/

structure ConnectionParams where
  host : List UInt16
  port : UInt16
  username : List UInt16
  password : List UInt16
  sslEnabled : Bool
  deriving DecidableEq

def DEFAULT_DB_PORT : UInt16 := 24678

/-- Key characters of the expression. -/
def isKey (unit : UInt16) : Bool := decide (unit ≠ ampersand ∧ unit ≠ equals)

/-- A match that begins here: the key, the value and what follows. The key takes all it can; with
fewer characters it would not be followed by `=` either. -/
def matchHere (text : List UInt16) : Option (List UInt16 × List UInt16 × List UInt16) :=
  match text.dropWhile isKey with
  | [] => none
  | next :: rest =>
      if next = equals ∧ text.takeWhile isKey ≠ [] then
        some (text.takeWhile isKey, rest.takeWhile (· ≠ ampersand), rest.dropWhile (· ≠ ampersand))
      else none

/-- `QRegularExpression::globalMatch`: each match is looked for from the end of the one before, one
character after the other. The first argument bounds the number of attempts. -/
def globalMatch : Nat → List UInt16 → List (List UInt16 × List UInt16)
  | 0, _ => []
  | _ + 1, [] => []
  | attempts + 1, first :: rest =>
      match matchHere (first :: rest) with
      | some (key, value, after) => (key, value) :: globalMatch attempts after
      | none => globalMatch attempts rest

/-- No other character has one of the letters compared here as its lower case. -/
def toLower (unit : UInt16) : UInt16 :=
  if 0x41 ≤ unit ∧ unit ≤ 0x5a then unit + 0x20 else unit

def parseSslValue (value : List UInt16) : Bool :=
  [units "true", units "1", units "yes", units "on"].contains (value.map toLower)

def setParam (params : ConnectionParams) (param : List UInt16 × List UInt16) : ConnectionParams :=
  if param.1 = units "usr" ∨ param.1 = units "user" then { params with username := param.2 }
  else if param.1 = units "pswd" then { params with password := param.2 }
  else if param.1 = units "ssl" then { params with sslEnabled := parseSslValue param.2 }
  else params

def parseQueryParams (query : List UInt16) (params : ConnectionParams) : ConnectionParams :=
  (globalMatch query.length query).foldl setParam params

def scheme : List UInt16 := units "qindb://"

/-- The host and the port. -/
def parseHostPort (hostPortPart : List UInt16) : Option ConnectionParams :=
  let host := hostPortPart.takeWhile (· ≠ colon)
  match hostPortPart.dropWhile (· ≠ colon) with
  | [] => some ⟨host, DEFAULT_DB_PORT, [], [], false⟩
  | _ :: text =>
      match unsigned 10 (2 ^ 16) text with
      | none => none
      | some port => if port = 0 then none else some ⟨host, .ofNat port, [], [], false⟩

def parse (connectionString : List UInt16) : Option ConnectionParams :=
  if !scheme.isPrefixOf connectionString then none
  else
    let urlPart := connectionString.drop scheme.length
    let hostPortPart := urlPart.takeWhile (· ≠ question)
    let queryPart := (urlPart.dropWhile (· ≠ question)).tail
    if urlPart = [] then none
    else if hostPortPart = [] then none
    else (parseHostPort hostPortPart).map fun params =>
      if queryPart = [] then params else parseQueryParams queryPart params

/-! ## Parameters that are found -/

theorem ne_of_not_mem {mark : UInt16} {text : List UInt16} (absent : mark ∉ text) :
    ∀ unit ∈ text, decide (unit ≠ mark) = true :=
  fun _ member => decide_eq_true fun same => absent (same ▸ member)

/-- A parameter at the front of a query: the rest is the end, or begins with `&`. -/
theorem matchHere_param {key value rest : List UInt16} (named : key ≠ [])
    (keys : ∀ unit ∈ key, isKey unit = true) (single : ampersand ∉ value)
    (ends : Stops (· ≠ ampersand) rest) :
    matchHere (key ++ equals :: (value ++ rest)) = some (key, value, rest) := by
  have stop : Stops isKey (equals :: (value ++ rest)) := stops_cons (by decide)
  have others := ne_of_not_mem single
  simp only [matchHere, takeWhile_exact keys stop, dropWhile_exact keys stop,
    takeWhile_exact others ends, dropWhile_exact others ends, ne_eq, named, not_false_eq_true,
    and_self, if_true]

/-- The parameter is found, and the search goes on behind it. -/
theorem globalMatch_param {key value rest : List UInt16} (attempts : Nat) (named : key ≠ [])
    (keys : key.all isKey = true) (single : ampersand ∉ value) (ends : Stops (· ≠ ampersand) rest) :
    globalMatch (attempts + 1) (key ++ equals :: (value ++ rest)) =
      (key, value) :: globalMatch attempts rest := by
  obtain ⟨first, more, rfl⟩ := List.exists_cons_of_ne_nil named
  have found := matchHere_param named (List.all_eq_true.mp keys) single ends
  rw [List.cons_append] at found ⊢
  rw [globalMatch]
  simp only [found]

theorem globalMatch_ampersand (attempts : Nat) (rest : List UInt16) :
    globalMatch (attempts + 1) (ampersand :: rest) = globalMatch attempts rest := by
  have none : matchHere (ampersand :: rest) = none := by
    have stop : ¬ isKey ampersand = true := by decide
    rw [matchHere, List.dropWhile_cons_of_neg stop]
    exact if_neg fun both => absurd both.1 (by decide)
  rw [globalMatch]
  simp only [none]

/-! ## Connection strings -/

def sslText (ssl : Bool) : List UInt16 := if ssl then units "true" else units "false"

def queryText (username password : List UInt16) (ssl : Bool) : List UInt16 :=
  units "usr" ++ equals :: (username ++ ampersand :: (units "pswd" ++ equals :: (password ++
    ampersand :: (units "ssl" ++ equals :: (sslText ssl ++ [])))))

/-- `qindb://host:port?usr=username&pswd=password&ssl=ssl` -/
def connectionString (params : ConnectionParams) : List UInt16 :=
  scheme ++ (params.host ++ colon :: (numeral 10 params.port.toNat ++
    question :: queryText params.username params.password params.sslEnabled))

theorem parseQueryParams_queryText {username password : List UInt16} {ssl : Bool}
    (user : ampersand ∉ username) (secret : ampersand ∉ password) (params : ConnectionParams) :
    parseQueryParams (queryText username password ssl) params =
      { params with username, password, sslEnabled := ssl } := by
  have flag : ampersand ∉ sslText ssl := by cases ssl <;> decide
  have long : ∃ attempts, (queryText username password ssl).length = attempts + 1 + 1 + 1 + 1 + 1 := by
    refine ⟨(queryText username password ssl).length - 5, ?_⟩
    simp only [queryText, units, List.length_append, List.length_cons, List.length_map]
    have : "usr".toList.length = 3 := by decide
    have : "pswd".toList.length = 4 := by decide
    omega
  obtain ⟨attempts, length⟩ := long
  rw [parseQueryParams, length, queryText,
    globalMatch_param _ (by decide) (by decide) user (stops_cons (by decide)), globalMatch_ampersand,
    globalMatch_param _ (by decide) (by decide) secret (stops_cons (by decide)), globalMatch_ampersand,
    globalMatch_param _ (by decide) (by decide) flag stops_nil]
  have done : globalMatch attempts [] = [] := by cases attempts <;> rfl
  have read : parseSslValue (sslText ssl) = ssl := by cases ssl <;> decide
  rw [done]
  simp only [List.foldl_cons, List.foldl_nil, setParam, read]
  rfl

/-- Digits are none of the separators. -/
theorem separators_of_digit {unit : UInt16} (is_digit : IsDigit 10 unit) :
    unit ≠ colon ∧ unit ≠ question := by
  constructor <;> rintro rfl <;> exact absurd is_digit (by decide)

/-- Parameters that are written out are read back. -/
theorem parse_connectionString {params : ConnectionParams} (named : params.host ≠ [])
    (noColon : colon ∉ params.host) (noQuestion : question ∉ params.host) (open_ : params.port ≠ 0)
    (user : ampersand ∉ params.username) (secret : ampersand ∉ params.password) :
    parse (connectionString params) = some params := by
  have digits := numeral_digits (by decide) (by decide : 10 ≤ 16) params.port.toNat
  have query : queryText params.username params.password params.sslEnabled ≠ [] :=
    List.append_ne_nil_of_left_ne_nil (by decide) _
  have plain : question ∉ params.host ++ colon :: numeral 10 params.port.toNat := by
    rw [List.mem_append, List.mem_cons]
    rintro (host | same | port)
    · exact noQuestion host
    · exact absurd same (by decide)
    · exact (separators_of_digit (digits _ port)).2 rfl
  have port : unsigned 10 (2 ^ 16) (numeral 10 params.port.toNat) = some params.port.toNat :=
    unsigned_numeral params.port.toNat_lt
  have nonzero : params.port.toNat ≠ 0 := fun zero => open_ (UInt16.toNat_inj.mp zero)
  have stop : Stops (· ≠ question)
      (question :: queryText params.username params.password params.sslEnabled) :=
    stops_cons (by decide)
  have split : Stops (· ≠ colon) (colon :: numeral 10 params.port.toNat) := stops_cons (by decide)
  have part : parseHostPort (params.host ++ colon :: numeral 10 params.port.toNat) =
      some ⟨params.host, params.port, [], [], false⟩ := by
    simp only [parseHostPort, takeWhile_exact (ne_of_not_mem noColon) split,
      dropWhile_exact (ne_of_not_mem noColon) split, port, if_neg nonzero, UInt16.ofNat_toNat]
  have regroup : params.host ++ colon :: (numeral 10 params.port.toNat ++
      question :: queryText params.username params.password params.sslEnabled) =
      (params.host ++ colon :: numeral 10 params.port.toNat) ++
        question :: queryText params.username params.password params.sslEnabled := by
    rw [List.append_assoc, List.cons_append]
  rw [parse, connectionString, List.drop_left, regroup]
  simp only [takeWhile_exact (ne_of_not_mem plain) stop, dropWhile_exact (ne_of_not_mem plain) stop,
    List.tail_cons, part, Option.map_some, if_neg query, parseQueryParams_queryText user secret]
  simp [named]

/-- A host without separators, and a port. -/
def ConnectionParams.Sound (params : ConnectionParams) : Prop :=
  params.host ≠ [] ∧ colon ∉ params.host ∧ question ∉ params.host ∧ 1 ≤ params.port.toNat ∧
    params.port.toNat ≤ 65535

theorem parseQueryParams_target (query : List UInt16) (params : ConnectionParams) :
    (parseQueryParams query params).host = params.host ∧
      (parseQueryParams query params).port = params.port := by
  rw [parseQueryParams]
  induction globalMatch query.length query generalizing params with
  | nil => exact ⟨rfl, rfl⟩
  | cons param rest ih =>
    rw [List.foldl_cons]
    refine (ih _).imp (fun same => same.trans ?_) (fun same => same.trans ?_) <;>
      rw [setParam] <;> split_ifs <;> rfl

theorem not_mem_takeWhile (mark : UInt16) (text : List UInt16) :
    mark ∉ text.takeWhile (· ≠ mark) := by
  intro member
  have := List.mem_takeWhile_imp member
  simp at this

/-- The host that is accepted is what stands in front of the first separator. -/
theorem parseHostPort_some {part : List UInt16} {params : ConnectionParams}
    (accepted : parseHostPort part = some params) :
    params.host = part.takeWhile (· ≠ colon) ∧ 1 ≤ params.port.toNat ∧
      params.port.toNat ≤ 65535 := by
  have high : params.port.toNat ≤ 65535 := Nat.le_of_lt_succ params.port.toNat_lt
  rw [parseHostPort] at accepted
  split at accepted
  · cases accepted
    exact ⟨rfl, (by decide : 1 ≤ DEFAULT_DB_PORT.toNat), high⟩
  · split at accepted
    · cases accepted
    · rename_i port read
      split at accepted
      · cases accepted
      · rename_i nonzero
        cases accepted
        have below : port < 2 ^ 16 := by
          rw [unsigned] at read
          exact of_decide_eq_true (Option.filter_eq_some_iff.mp read).2
        refine ⟨rfl, ?_, high⟩
        rw [UInt16.toNat_ofNat', Nat.mod_eq_of_lt below]
        omega

/-- The target of a string that is accepted stands behind the scheme. -/
theorem parse_some {text : List UInt16} {params : ConnectionParams}
    (accepted : parse text = some params) :
    ∃ url, text = scheme ++ url ∧ url.takeWhile (· ≠ question) ≠ [] ∧
      params.host = (url.takeWhile (· ≠ question)).takeWhile (· ≠ colon) ∧
      1 ≤ params.port.toNat ∧ params.port.toNat ≤ 65535 := by
  rw [parse] at accepted
  split at accepted
  · cases accepted
  · rename_i begins
    have front : scheme <+: text := by simpa using begins
    obtain ⟨url, rfl⟩ := front
    simp only [List.drop_left] at accepted
    split at accepted
    · cases accepted
    · split at accepted
      · cases accepted
      · rename_i nonempty
        obtain ⟨target, read, rfl⟩ := Option.map_eq_some_iff.mp accepted
        obtain ⟨host, low, high⟩ := parseHostPort_some read
        refine ⟨url, rfl, nonempty, ?_⟩
        split
        · exact ⟨host, low, high⟩
        · rw [(parseQueryParams_target _ target).1, (parseQueryParams_target _ target).2]
          exact ⟨host, low, high⟩

/-- The host is missing if the colon comes first. -/
theorem host_eq_nil_iff {url : List UInt16} (nonempty : url.takeWhile (· ≠ question) ≠ []) :
    (url.takeWhile (· ≠ question)).takeWhile (· ≠ colon) = [] ↔ [colon] <+: url := by
  cases url with
  | nil => exact absurd rfl nonempty
  | cons first rest =>
    have passes : first ≠ question := by
      rintro rfl
      exact nonempty (List.takeWhile_cons_of_neg (by simp))
    rw [List.takeWhile_cons_of_pos (by simpa using passes), List.cons_prefix_cons]
    by_cases same : first = colon
    · rw [List.takeWhile_cons_of_neg (by simpa using same)]
      exact iff_of_true rfl ⟨same.symm, List.nil_prefix⟩
    · rw [List.takeWhile_cons_of_pos (by simpa using same)]
      exact iff_of_false (List.cons_ne_nil _ _) fun begins => same begins.1.symm

/-- What is accepted has a host without separators and a port if and only if no colon follows the
scheme; and parameters that are written out are read back. -/
theorem parse_exact_iff (text : List UInt16) (params : ConnectionParams) :
    (parse text = some params → (params.Sound ↔ ¬ scheme ++ [colon] <+: text)) ∧
    (params.Sound → ampersand ∉ params.username → ampersand ∉ params.password →
      parse (connectionString params) = some params) := by
  refine ⟨fun accepted => ?_, fun sound user secret => ?_⟩
  · obtain ⟨url, rfl, nonempty, host, port⟩ := parse_some accepted
    have noColon : colon ∉ params.host := host ▸ not_mem_takeWhile colon _
    have noQuestion : question ∉ params.host := fun member =>
      not_mem_takeWhile question url ((List.takeWhile_prefix _).subset (host ▸ member))
    rw [List.prefix_append_right_inj, ← host_eq_nil_iff nonempty, ← host, ConnectionParams.Sound]
    exact ⟨And.left, fun named => ⟨named, noColon, noQuestion, port⟩⟩
  · obtain ⟨named, noColon, noQuestion, low, -⟩ := sound
    refine parse_connectionString named noColon noQuestion ?_ user secret
    rintro zero
    rw [zero] at low
    exact absurd low (by decide)

theorem parse_exact_iff_localhost :
    let params : ConnectionParams := ⟨units "localhost", 24678, units "admin", units "a=b?", true⟩
    params.Sound ∧ parse (connectionString params) = some params :=
  have sound : ConnectionParams.Sound ⟨units "localhost", 24678, units "admin", units "a=b?", true⟩ :=
    ⟨by decide, by decide, by decide, by decide, by decide⟩
  ⟨sound, (parse_exact_iff [] _).2 sound (by decide) (by decide)⟩

/-- `qindb://:80` has no host and is accepted. -/
theorem missingHost_accepted :
    parse (units "qindb://:80") = some ⟨[], 80, [], [], false⟩ := by decide

end QinDB.Network
