import Idk.Git.Remote

/-!
# Endpoints are shown without their secrets

A URL is a scheme, an authority with or without user-info, a path and, behind the first
`?` or `#`, its parameters.  Every text with a supported scheme is one.

**Main result:** `endpoint_redaction`: what is shown of a URL does not depend on its
user-info and its parameters, and an endpoint that carries either of them, or has another
transport, is refused.
-/

namespace Idk.Git

open Idk.Logic

/-! ## URLs -/

/-- `?` and `#`. -/
def startsParameters (char : Char) : Bool := char == '?' || char == '#'

/-- What may stand in the authority of a URL. -/
def Authority (text : List Char) : Prop := ∀ char ∈ text, char ≠ '/' ∧ startsParameters char = false

/-- The parts of a URL with a supported scheme. -/
structure Url where
  scheme : List Char
  supported : scheme ∈ supportedSchemes
  user : Option (List Char)
  userPlain : ∀ text, user = some text → Authority text
  host : List Char
  hostPlain : Authority host ∧ '@' ∉ host
  /-- The path, if there is a slash behind the authority. -/
  path : Option (List Char)
  pathPlain : ∀ text, path = some text → ∀ char ∈ text, startsParameters char = false
  /-- The parameters with the character that begins them. -/
  parameters : Option (Char × List Char)
  marked : ∀ mark text, parameters = some (mark, text) → startsParameters mark = true

namespace Url

def authority (url : Url) : List Char := url.user.elim [] (· ++ ['@']) ++ url.host

/-- What stands before the parameters. -/
def front (url : Url) : List Char := url.authority ++ url.path.elim [] ('/' :: ·)

/-- What stands behind `://`. -/
def rest (url : Url) : List Char :=
  url.front ++ url.parameters.elim [] fun parts => parts.1 :: parts.2

def text (url : Url) : String := String.ofList (url.scheme ++ "://".toList ++ url.rest)

/-- Two URLs with user-info and parameters that differ in nothing else. -/
structure SameEndpoint (one two : Url) : Prop where
  scheme : one.scheme = two.scheme
  host : one.host = two.host
  path : one.path = two.path
  users : one.user.isSome = true ∧ two.user.isSome = true
  parameters : one.parameters.isSome = true ∧ two.parameters.isSome = true

/-- What a URL carries beside the place it names: user-info that is not only the name of an
    SSH user, or parameters. -/
def Carries (url : Url) : Prop :=
  (∃ user, url.user = some user ∧ (url.scheme ≠ "ssh".toList ∨ ':' ∈ user)) ∨
    url.parameters.isSome = true

variable (url : Url)

theorem authority_plain : Authority url.authority := by
  intro char member
  obtain user | host := List.mem_append.mp member
  · cases known : url.user with
    | none => simp [known] at user
    | some text =>
      simp only [known, Option.elim, List.mem_append, List.mem_singleton] at user
      obtain inside | rfl := user
      · exact url.userPlain text known char inside
      · exact ⟨by decide, by decide⟩
  · exact url.hostPlain.1 char host

theorem front_plain : ∀ char ∈ url.front, startsParameters char = false := by
  intro char member
  obtain inside | path := List.mem_append.mp member
  · exact (url.authority_plain char inside).2
  · cases known : url.path with
    | none => simp [known] at path
    | some text =>
      simp only [known, Option.elim, List.mem_cons] at path
      obtain rfl | inside := path
      · decide
      · exact url.pathPlain text known char inside

/-- The scheme has no colon. -/
theorem scheme_plain : ':' ∉ url.scheme := by
  have none_ : ∀ scheme ∈ supportedSchemes, ':' ∉ scheme := by decide
  exact none_ url.scheme url.supported

end Url

/-! ## What is shown of a URL -/

theorem redactEndpoint_text (url : Url) :
    redactEndpoint url.text = redactUrl url.scheme url.rest := by
  have marks : "://".toList = ':' :: ['/', '/'] := by decide
  have cut : cutAt "://".toList url.text.toList = some (url.scheme, url.rest) := by
    rw [Url.text, marks, String.toList_ofList]
    exact cutAt_append url.scheme_plain
  have supported : supportedSchemes.contains url.scheme = true := by simpa using url.supported
  simp only [redactEndpoint, cut, supported, if_true]

theorem cut_parameters (url : Url) :
    cutFirst (fun char => char == '?' || char == '#') url.rest =
      url.parameters.map fun parts => (url.front, parts.2) := by
  cases known : url.parameters with
  | none =>
    have whole : url.rest = url.front := by simp [Url.rest, known]
    rw [whole]
    exact cutFirst_none url.front_plain
  | some parts =>
    have split : url.rest = url.front ++ parts.1 :: parts.2 := by simp [Url.rest, known]
    rw [split]
    exact cutFirst_append url.front_plain (url.marked parts.1 parts.2 known)

theorem cut_path (url : Url) :
    (cutFirst (· == '/') url.front).getD (url.front, []) =
      (url.authority, url.path.getD []) := by
  have plain : ∀ char ∈ url.authority, (char == '/') = false := fun char member => by
    simpa using (url.authority_plain char member).1
  cases known : url.path with
  | none =>
    have whole : url.front = url.authority := by simp [Url.front, known]
    rw [whole, cutFirst_none plain]
    rfl
  | some path =>
    have split : url.front = url.authority ++ '/' :: path := by simp [Url.front, known]
    rw [split, cutFirst_append plain (by decide)]
    rfl

theorem redactAuthority_user (url : Url) :
    redactAuthority url.scheme url.authority =
      match url.user with
      | some user =>
        ("[redacted]@".toList ++ url.host, url.scheme != "ssh".toList || user.contains ':')
      | none => (url.host, false) := by
  have plain : ∀ char ∈ url.host, (char == '@') = false := fun char member => by
    have other : char ≠ '@' := fun same => url.hostPlain.2 (same ▸ member)
    simpa using other
  cases known : url.user with
  | none =>
    have whole : url.authority = url.host := by simp [Url.authority, known]
    simp only [redactAuthority, whole, cutLast_none plain]
  | some user =>
    have split : url.authority = user ++ '@' :: url.host := by simp [Url.authority, known]
    simp only [redactAuthority, split, @cutLast_append _ _ _ _ '@' plain (by decide)]

/-- The parts of a URL that are shown, and whether it carries credentials. -/
theorem redactUrl_parts (url : Url) :
    redactUrl url.scheme url.rest =
      { display := String.ofList (url.scheme ++ "://".toList ++
          (url.user.elim [] (fun _ => "[redacted]@".toList) ++ url.host) ++
          (if (url.path.getD []).isEmpty then [] else ['/']) ++ url.path.getD [] ++
          (if url.parameters.isSome then "[redacted parameters]".toList else []))
        credentials := url.user.elim false
          (fun user => url.scheme != "ssh".toList || user.contains ':') || url.parameters.isSome
        unsupported := false } := by
  have front : (cutFirst (fun char => char == '?' || char == '#') url.rest).elim url.rest (·.1) =
      url.front := by
    rw [cut_parameters]
    cases known : url.parameters with
    | none => simp [Url.rest, known]
    | some parts => rfl
  have some_ : (cutFirst (fun char => char == '?' || char == '#') url.rest).isSome =
      url.parameters.isSome := by simp [cut_parameters]
  simp only [redactUrl, front, some_, cut_path, redactAuthority_user]
  cases url.user <;> rfl

theorem display_same {one two : Url} (same : one.SameEndpoint two) :
    (redactEndpoint one.text).display = (redactEndpoint two.text).display := by
  have user : one.user.elim [] (fun _ => "[redacted]@".toList) =
      two.user.elim [] (fun _ => "[redacted]@".toList) := by
    obtain ⟨first, second⟩ := same.users
    obtain ⟨_, first⟩ := Option.isSome_iff_exists.mp first
    obtain ⟨_, second⟩ := Option.isSome_iff_exists.mp second
    rw [first, second]
    rfl
  simp only [redactEndpoint_text, redactUrl_parts]
  rw [user, same.scheme, same.host, same.path, same.parameters.1, same.parameters.2]

theorem credentials_iff (url : Url) :
    (redactEndpoint url.text).credentials = true ↔ url.Carries := by
  simp only [redactEndpoint_text, redactUrl_parts, Bool.or_eq_true, Url.Carries]
  refine or_congr_left ?_
  cases url.user with
  | none => simp
  | some user => simp

/-! ## Which texts are URLs -/

/-- The texts that begin with a supported scheme. -/
def HasScheme (value : String) : Prop :=
  ∃ scheme rest, cutAt "://".toList value.toList = some (scheme, rest) ∧ scheme ∈ supportedSchemes

theorem exists_authority {text : List Char} (plain : Authority text) :
    ∃ (user : Option (List Char)) (host : List Char),
      text = user.elim [] (· ++ ['@']) ++ host ∧ (∀ part, user = some part → Authority part) ∧
        Authority host ∧ '@' ∉ host := by
  cases cut : cutLast (· == '@') text with
  | none =>
    refine ⟨none, text, rfl, nofun, plain, fun member => ?_⟩
    simpa using free_of_cutLast_none cut '@' member
  | some parts =>
    obtain ⟨user, host⟩ := parts
    obtain ⟨free, separator, at_, rfl⟩ := cutLast_some cut
    obtain rfl : separator = '@' := by simpa using at_
    refine ⟨some user, host, by simp, ?_, ?_, fun member => ?_⟩
    · rintro _ same char member
      cases same
      exact plain char (List.mem_append_left _ member)
    · exact fun char member => plain char (by simp [member])
    · simpa using free '@' member

theorem exists_url {value : String} : HasScheme value → ∃ url : Url, url.text = value := by
  rintro ⟨scheme, rest, cut, supported⟩
  -- the parameters are cut off first, then the path and last the user-info
  obtain ⟨front, parameters, split, frontPlain, marked⟩ :
      ∃ (front : List Char) (parameters : Option (Char × List Char)),
        rest = front ++ parameters.elim [] (fun parts => parts.1 :: parts.2) ∧
        (∀ char ∈ front, startsParameters char = false) ∧
        ∀ mark text, parameters = some (mark, text) → startsParameters mark = true := by
    cases found : cutFirst startsParameters rest with
    | none => exact ⟨rest, none, by simp, free_of_cutFirst_none found, nofun⟩
    | some parts =>
      obtain ⟨free, mark, marks, split⟩ := cutFirst_some found
      refine ⟨parts.1, some (mark, parts.2), split, free, ?_⟩
      rintro _ _ same
      cases same
      exact marks
  obtain ⟨authority, path, whole, authorityPlain, pathPlain⟩ :
      ∃ (authority : List Char) (path : Option (List Char)),
        front = authority ++ path.elim [] ('/' :: ·) ∧ Authority authority ∧
        ∀ text, path = some text → ∀ char ∈ text, startsParameters char = false := by
    cases found : cutFirst (· == '/') front with
    | none =>
      refine ⟨front, none, by simp, fun char member => ⟨?_, frontPlain char member⟩, nofun⟩
      simpa using free_of_cutFirst_none found char member
    | some parts =>
      obtain ⟨free, separator, slash, rfl⟩ := cutFirst_some found
      obtain rfl : separator = '/' := by simpa using slash
      refine ⟨parts.1, some parts.2, rfl, fun char member => ⟨?_, ?_⟩, ?_⟩
      · simpa using free char member
      · exact frontPlain char (List.mem_append_left _ member)
      · rintro _ same char member
        cases same
        exact frontPlain char (by simp [member])
  obtain ⟨user, host, made, userPlain, hostPlain⟩ := exists_authority authorityPlain
  let url : Url := { scheme, supported, user, userPlain, host, hostPlain, path, pathPlain, parameters, marked }
  have same : url.rest = rest := by
    simp only [url, Url.rest, Url.front, Url.authority]
    rw [split, whole, made]
  refine ⟨url, ?_⟩
  rw [Url.text, same, ← cutAt_some cut, String.ofList_toList]

/-! ## Other transports -/

/-- A text with a scheme that is not supported, or with a helper before `::`. -/
def OtherTransport (value : String) : Prop :=
  (∃ scheme rest, cutAt "://".toList value.toList = some (scheme, rest) ∧
    scheme ∉ supportedSchemes) ∨
  ∃ helper address, value.toList = helper ++ ':' :: ':' :: address ∧ ':' ∉ helper

theorem redactEndpoint_other {value : String} (other : OtherTransport value) :
    redactEndpoint value = unsupportedTransport := by
  have unsupported {scheme rest : List Char} (cut : cutAt "://".toList value.toList = some (scheme, rest))
      (none_ : scheme ∉ supportedSchemes) : redactEndpoint value = unsupportedTransport := by
    have absent : supportedSchemes.contains scheme = false := by simpa using none_
    simp only [redactEndpoint, cut, absent]
    rfl
  obtain ⟨scheme, rest, cut, none_⟩ | ⟨helper, address, split, plain⟩ := other
  · exact unsupported cut none_
  · cases cut : cutAt "://".toList value.toList with
    | some parts =>
      refine unsupported cut fun supported => ?_
      have marks : "://".toList = ':' :: ['/', '/'] := by decide
      have scheme : ':' ∉ parts.1 := by
        have none_ : ∀ scheme ∈ supportedSchemes, ':' ∉ scheme := by decide
        exact none_ parts.1 supported
      have whole := cutAt_some cut
      rw [marks, List.append_assoc] at whole
      -- the first colon ends the scheme, and it ends the helper
      have free {text : List Char} (absent : ':' ∉ text) :
          ∀ char ∈ text, (char == ':') = false := fun char member => by
        have different : char ≠ ':' := fun same => absent (same ▸ member)
        simpa using different
      have one := @cutFirst_append _ (· == ':') parts.1 ('/' :: '/' :: parts.2) ':' (free scheme) rfl
      have two := @cutFirst_append _ (· == ':') helper (':' :: address) ':' (free plain) rfl
      rw [← split, whole] at two
      have same := Option.some.inj (one.symm.trans two)
      simp at same
    | none =>
      have marks : "::".toList = ':' :: [':'] := by decide
      have found : cutAt "::".toList value.toList = some (helper, address) := by
        rw [split, marks]
        have cut := @cutAt_append _ _ _ [':'] helper address ':' plain
        simpa using cut
      simp only [redactEndpoint, cut, found]
      rfl

theorem other_hidden {value : String} (other : OtherTransport value) :
    unsupportedTransport.display ≠ value := by
  have colon : ':' ∈ value.toList := by
    obtain ⟨scheme, rest, cut, _⟩ | ⟨helper, address, split, _⟩ := other
    · have marks : "://".toList = ':' :: ['/', '/'] := by decide
      rw [cutAt_some cut, marks]
      simp
    · simp [split]
  rintro rfl
  exact absurd colon (by decide)

/-! ## What is refused -/

/-- No operation uses a remote with this endpoint on its side. -/
def Refused (value : String) : Prop :=
  ∀ (name : String) (fetch push : List String) (side : Bool),
    value ∈ (if side then push else fetch) →
      ∃ error, safeRemote (remoteState name fetch push) side = .error error

theorem refused {value : String}
    (flagged : (redactEndpoint value).credentials = true ∨ (redactEndpoint value).unsupported = true) :
    Refused value := by
  have summarized {values : List String} (member : value ∈ values) :
      ((summarize values).2.1 || (summarize values).2.2) = true := by
    simp only [summarize, Bool.or_eq_true, List.any_map, List.any_eq_true]
    exact flagged.imp (fun found => ⟨value, member, found⟩) fun found => ⟨value, member, found⟩
  intro name fetch push side member
  cases side with
  | false =>
    have unsafe_ : (remoteState name fetch push).fetchUnsafe = true := summarized member
    exact ⟨_, by simp [safeRemote, unsafe_]; rfl⟩
  | true =>
    have unsafe_ : (remoteState name fetch push).pushUnsafe = true := summarized member
    exact ⟨_, by simp [safeRemote, unsafe_]; rfl⟩

/-- What is shown of an endpoint keeps the secrets of its URL, and whoever carries any, or
    has another transport, is flagged and refused. -/
theorem endpoint_redaction :
    (∀ value, HasScheme value → ∃ url : Url, url.text = value) ∧
    (∀ one two : Url, one.SameEndpoint two →
      (redactEndpoint one.text).display = (redactEndpoint two.text).display) ∧
    (∀ url : Url, url.Carries →
      (redactEndpoint url.text).credentials = true ∧ Refused url.text) ∧
    ∀ value, OtherTransport value → (redactEndpoint value).unsupported = true ∧
      (redactEndpoint value).display ≠ value ∧ Refused value := by
  refine ⟨fun value => exists_url, fun one two => display_same, fun url carries => ?_,
    fun value other => ?_⟩
  · have flagged := (credentials_iff url).mpr carries
    exact ⟨flagged, refused (.inl flagged)⟩
  · have redacted := redactEndpoint_other other
    have flagged : (redactEndpoint value).unsupported = true := by rw [redacted]; rfl
    exact ⟨flagged, redacted ▸ other_hidden other, refused (.inr flagged)⟩

end Idk.Git
