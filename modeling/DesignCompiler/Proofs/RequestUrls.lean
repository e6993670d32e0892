import DesignCompiler.Store.Client
import Mathlib

/-!
Where the requests to the store go. A reference that begins with a slash keeps the scheme and the
authority of the URL that it is followed from, and nothing of its path: the requests go under the base
only where the base has no path of its own.
-/
namespace DesignCompiler

namespace Url

/-- A character that a path keeps as it is. -/
def isPlainChar (c : Char) : Bool :=
  '!' ≤ c && c ≤ '~' && c != '/' && c != '\\' && !pathReserved.contains c

/-- A step that a path keeps as it is, and that leads further down. -/
structure IsPlain (name : String) : Prop where
  filled : name ≠ ""
  chars : name.toList.all isPlainChar = true
  leaves : staysHere name = false
  descends : goesUp name = false

/-- The text of a path from the root. -/
def rooted (names : List String) : List Char := names.flatMap fun name => '/' :: name.toList

theorem rooted_eq_intercalate {names : List String} (some : names ≠ []) :
    rooted names = '/' :: ("/".intercalate names).toList := by
  induction names with
  | nil => exact absurd rfl some
  | cons name names ih =>
    cases names with
    | nil => simp [rooted]
    | cons next names =>
      rw [rooted, List.flatMap_cons, ← rooted, ih (List.cons_ne_nil _ _)]
      simp

section Chars
variable {c : Char}

theorem isSlash_plain (known : Bool) (plain : isPlainChar c = true) : isSlash known c = false := by
  simp only [isPlainChar, Bool.and_eq_true, bne_iff_ne] at plain
  simp [isSlash, plain.1.1.2, plain.1.2]

theorem ends_plain (plain : isPlainChar c = true) : (c == '?' || c == '#') = false := by
  simp only [isPlainChar, Bool.and_eq_true, Bool.not_eq_true'] at plain
  rw [Bool.or_eq_false_iff, beq_eq_false_iff_ne, beq_eq_false_iff_ne]
  constructor <;> rintro rfl <;> exact absurd plain.2 (by simp [pathReserved, String.contains_char_eq])

theorem lt_plain (plain : isPlainChar c = true) : ' ' < c := by
  simp only [isPlainChar, Bool.and_eq_true, decide_eq_true_eq] at plain
  exact Std.lt_of_lt_of_le (by decide) plain.1.1.1.1

theorem escape_plain {chars : List Char} (plain : chars.all isPlainChar = true) :
    escape pathReserved chars = String.ofList chars := by
  rw [escape]
  congr 1
  induction chars with
  | nil => rfl
  | cons c chars ih =>
    simp only [List.all_cons, Bool.and_eq_true] at plain
    obtain ⟨first, plain⟩ := plain
    have lower := lt_plain first
    simp only [isPlainChar, Bool.and_eq_true, decide_eq_true_eq] at first
    rw [List.flatMap_cons, if_pos ⟨Std.le_of_lt lower, first.1.1.1.2, first.2⟩, ih plain]
    rfl

end Chars

theorem partsOf_ne_nil (known : Bool) (chars : List Char) : partsOf known chars ≠ [] := by
  cases chars with
  | nil => exact List.cons_ne_nil _ _
  | cons c rest =>
    rw [partsOf]
    split
    · exact List.cons_ne_nil _ _
    · split <;> exact List.cons_ne_nil _ _

/-- What stands in front of the first slash belongs to the first part. -/
theorem partsOf_append (known : Bool) {part : List Char} (plain : part.all isPlainChar = true)
    (rest : List Char) : partsOf known (part ++ rest) = (partsOf known rest).modifyHead (part ++ ·) := by
  obtain ⟨first, others, parts⟩ := List.exists_cons_of_ne_nil (partsOf_ne_nil known rest)
  rw [parts, List.modifyHead_cons]
  induction part with
  | nil => exact parts
  | cons c part ih =>
    simp only [List.all_cons, Bool.and_eq_true] at plain
    rw [List.cons_append, partsOf, isSlash_plain known plain.1, if_neg Bool.false_ne_true, ih plain.2]
    rfl

section Steps
variable {names : List String} (plain : ∀ name ∈ names, IsPlain name)
include plain

theorem follow_plain (taken : List String) : follow taken names = taken.reverse ++ names := by
  induction names generalizing taken with
  | nil => simp [follow]
  | cons name names ih =>
    have first := plain name List.mem_cons_self
    simp only [follow, first.leaves, first.descends, Bool.false_eq_true, or_self, and_false, if_false]
    rw [ih (fun name member => plain name (List.mem_cons_of_mem _ member)), List.reverse_cons,
      List.append_assoc, List.singleton_append]

theorem mem_rooted {c : Char} (member : c ∈ rooted names) : c = '/' ∨ isPlainChar c = true := by
  obtain ⟨name, listed, member⟩ := List.mem_flatMap.mp member
  rcases List.mem_cons.mp member with slash | member
  · exact .inl slash
  · exact .inr (List.all_eq_true.mp (plain name listed).chars c member)

/-- There is no query and no fragment in the text of a path. -/
theorem splitAt_rooted : splitAt (fun c => c == '?' || c == '#') (rooted names) = (rooted names, []) := by
  have inside : ∀ c ∈ rooted names, (!(c == '?' || c == '#')) = true := by
    intro c member
    rcases mem_rooted plain member with rfl | letter
    · rfl
    · rw [ends_plain letter, Bool.not_false]
  rw [splitAt, List.takeWhile_eq_self_iff.mpr inside, List.dropWhile_eq_nil_iff.mpr inside]

/-- A text without blanks counts as a whole. -/
theorem significant_rooted {text : String} (same : text.toList = rooted names) :
    significant text = rooted names := by
  have dark : ∀ c ∈ rooted names, ' ' < c := by
    intro c member
    rcases mem_rooted plain member with rfl | letter
    · decide
    · exact lt_plain letter
  have kept {chars : List Char} (dark : ∀ c ∈ chars, ' ' < c) : chars.dropWhile (· ≤ ' ') = chars := by
    refine List.dropWhile_eq_self_iff.mpr fun some => ?_
    simpa using dark _ (List.getElem_mem some)
  rw [significant, same]
  simp only [kept dark]
  rw [kept fun c member => dark c (List.mem_reverse.mp member), List.reverse_reverse,
    List.filter_eq_self.mpr fun c member => ?_]
  simp only [Bool.and_eq_true, bne_iff_ne]
  refine ⟨⟨?_, ?_⟩, ?_⟩ <;> rintro rfl <;> exact absurd (dark _ member) (by decide)

/-- The parts behind the first slash. -/
theorem partsOf_rooted (known : Bool) {name : String} (first : IsPlain name) :
    partsOf known (name.toList ++ rooted names) = name.toList :: names.map String.toList := by
  induction names generalizing name with
  | nil => rw [partsOf_append known first.chars]; simp [rooted, partsOf]
  | cons next names ih =>
    have others := ih (fun name member => plain name (List.mem_cons_of_mem _ member))
      (plain next List.mem_cons_self)
    rw [partsOf_append known first.chars, rooted, List.flatMap_cons, ← rooted, List.cons_append, partsOf,
      if_pos (by simp [isSlash]), others]
    simp

theorem stepsFrom_rooted (known : Bool) {name : String} (first : IsPlain name) :
    stepsFrom known [] (name.toList ++ rooted names) = name :: names := by
  have both : ∀ step ∈ name :: names, IsPlain step := List.forall_mem_cons.mpr ⟨first, plain⟩
  have read : ((name :: names).map String.toList).map (escape pathReserved) = name :: names := by
    rw [List.map_map]
    refine (List.map_congr_left fun step member => ?_).trans (List.map_id _)
    rw [Function.comp_apply, escape_plain (both step member).chars, String.ofList_toList, id]
  rw [stepsFrom, partsOf_rooted plain known first, ← List.map_cons, read, follow_plain both]
  rfl

end Steps

/-- The URL of steps from the root of where a URL is. -/
def atRoot (base : Url) (names : List String) : Url :=
  { base with path := .steps names, query := none, fragment := none }

section Rooted
variable {name : String} {names : List String} (plain : ∀ step ∈ name :: names, IsPlain step)
include plain

theorem exists_rooted : ∃ c rest, isPlainChar c = true ∧ rooted (name :: names) = '/' :: c :: rest := by
  have first := plain name List.mem_cons_self
  obtain ⟨c, letters, text⟩ : ∃ c letters, name.toList = c :: letters :=
    List.exists_cons_of_ne_nil fun none => first.filled (String.toList_eq_nil_iff.mp none)
  have letter : isPlainChar c = true :=
    List.all_eq_true.mp first.chars c (by rw [text]; exact List.mem_cons_self)
  refine ⟨c, letters ++ rooted names, letter, ?_⟩
  rw [rooted, List.flatMap_cons, text]
  rfl

theorem ofRooted_plain (base : Url) :
    ofRooted base.scheme base.authority (rooted (name :: names)) = base.atRoot (name :: names) := by
  obtain ⟨first, others⟩ := List.forall_mem_cons.mp plain
  have steps := stepsFrom_rooted others (isKnown base.scheme) first
  rw [ofRooted, splitAt_rooted plain]
  simp only [rooted, List.flatMap_cons, List.cons_append, isSlash] at steps ⊢
  simp only [decide_true, Bool.true_or, if_true, steps]
  rfl

theorem follows_rooted (base : Url) (steps : List String) :
    base.follows steps (rooted (name :: names)) = .ok (base.atRoot (name :: names)) := by
  obtain ⟨c, rest, letter, text⟩ := exists_rooted plain
  have whole := splitAt_rooted plain
  have read := ofRooted_plain plain base
  rw [text] at whole read ⊢
  rw [follows, whole]
  simp only [isSlash_plain _ letter, read]
  rfl

/-- A reference that begins with a slash is followed from the root. -/
theorem join_rooted {base : Url} {steps : List String} (path : base.path = .steps steps)
    {reference : String} (text : reference.toList = rooted (name :: names)) :
    base.join reference = .ok (base.atRoot (name :: names)) := by
  obtain ⟨c, rest, -, opened⟩ := exists_rooted plain
  have followed := follows_rooted plain base steps
  rw [join, significant_rooted plain text]
  rw [opened] at followed ⊢
  have slash : isSchemeChar '/' = false := by cbv
  have unnamed : splitScheme? ('/' :: c :: rest) = none := by
    rw [splitScheme?, List.takeWhile_cons_of_neg (by rw [slash]; exact Bool.false_ne_true)]
  rw [unnamed, path]
  exact followed

end Rooted

theorem follow_ne_nil {taken names : List String} (some : names ≠ [] ∨ taken ≠ []) :
    follow taken names ≠ [] := by
  induction names generalizing taken with
  | nil => simpa [follow] using some
  | cons name names ih =>
    simp only [follow]
    split
    case isTrue => simp
    case isFalse goes =>
      refine ih ?_
      by_cases last : names = []
      · rw [last, List.isEmpty_nil, not_and_or, not_or] at goes
        have goes := goes.resolve_left (absurd rfl)
        exact .inr (by simp [goes.1, goes.2])
      · exact .inl last

theorem exists_steps_of_rooted (scheme : String) (authority : Option Authority) (chars : List Char)
    (known : isKnown scheme = true) :
    ∃ steps, (ofRooted scheme authority chars).path = .steps steps ∧ steps ≠ [] := by
  refine ⟨_, rfl, ?_⟩
  split
  · simp [known]
  · exact follow_ne_nil (.inl fun none => partsOf_ne_nil _ _ (List.map_eq_nil_iff.mp none))

theorem exists_ofRooted_of_bind {scheme : String} {base : Url}
    {front : Except Fault (Authority × List Char)}
    (read : (do let (authority, rest) ← front; return ofRooted scheme (some authority) rest) = .ok base) :
    ∃ authority chars, ofRooted scheme authority chars = base := by
  cases front with
  | error fault => cases read
  | ok front => exact ⟨_, _, Except.ok.inj read⟩

theorem exists_ofRooted {scheme : String} {chars : List Char} {base : Url}
    (read : ofScheme scheme chars = .ok base) (known : isKnown base.scheme = true) :
    ∃ authority chars, ofRooted scheme authority chars = base := by
  unfold ofScheme at read
  split at read
  case isTrue =>
    split at read
    · split at read
      · exact exists_ofRooted_of_bind read
      · exact ⟨_, _, Except.ok.inj read⟩
    · exact ⟨_, _, Except.ok.inj read⟩
  case isFalse =>
    split at read
    · exact exists_ofRooted_of_bind read
    · rename_i foreign
      split at read
      · exact exists_ofRooted_of_bind read
      · exact ⟨_, _, Except.ok.inj read⟩
      · -- a path that is plain text is one of a scheme that is not known
        obtain rfl := Except.ok.inj read
        exact absurd known foreign

/-- A URL of a known scheme has a path of steps, if only the empty one. -/
theorem exists_steps_of_parse {text : String} {base : Url} (parsed : parse text = .ok base)
    (known : isKnown base.scheme = true) : ∃ steps, base.path = .steps steps ∧ steps ≠ [] := by
  rw [parse] at parsed
  split at parsed
  · obtain ⟨authority, chars, rfl⟩ := exists_ofRooted parsed known
    exact exists_steps_of_rooted _ authority chars known
  · cases parsed

/-- The steps of a base, without a slash at its end. -/
def front (base : Url) : List String :=
  match base.path with
  | .text _ => []
  | .steps steps => if steps.getLast? = some "" then steps.dropLast else steps

/-- The URL of steps under a base. -/
def under (base : Url) (names : List String) : Url := base.atRoot (base.front ++ names)

/-- What a URL under a base is, read from texts. -/
example : Url.parse "http://[::1]:8080/proxy/assets/v1/assets" =
    (Url.parse "http://[::1]:8080/proxy/").map (·.under ["assets", "v1", "assets"]) := by cbv

theorem under_eq_atRoot_iff {base : Url} {steps : List String} (path : base.path = .steps steps)
    (some : steps ≠ []) (names : List String) :
    base.under names = base.atRoot names ↔ steps = [""] := by
  have front : base.front = [] ↔ steps = [""] := by
    rw [Url.front, path]
    cases steps with
    | nil => exact absurd rfl some
    | cons step steps =>
      cases steps with
      | nil => simp
      | cons next steps => simp only [List.dropLast_cons_cons]; split <;> simp
  rw [← front]
  simp [under, atRoot]

end Url

namespace Store
variable {m : Type → Type} [Monad m]

theorem isPlain_assets : Url.IsPlain "assets" := ⟨by decide, by cbv, by cbv, by cbv⟩

theorem isPlain_version : Url.IsPlain "v1" := ⟨by decide, by cbv, by cbv, by cbv⟩

theorem dropWhile_operation (slashes : Nat) {names : List String} (some : names ≠ [])
    (plain : ∀ name ∈ names, Url.IsPlain name) :
    (String.ofList (List.replicate slashes '/') ++ "/".intercalate names).toList.dropWhile (· == '/') =
      ("/".intercalate names).toList := by
  obtain ⟨first, others, rfl⟩ := List.exists_cons_of_ne_nil some
  obtain ⟨c, rest, letter, opened⟩ := Url.exists_rooted plain
  rw [Url.rooted_eq_intercalate some, List.cons.injEq] at opened
  rw [String.toList_append, String.toList_ofList, opened.2, List.dropWhile_append_of_pos (by simp),
    List.dropWhile_cons_of_neg]
  rintro slash
  rw [beq_iff_eq.mp slash] at letter
  exact absurd (Url.isSlash_plain false letter) (by decide)

section Requests
variable (client : Client) {steps : List String} (path : client.base.path = .steps steps)
include path

theorem Client.createRequest_eq (request : UploadRequest) :
    client.createRequest request = .ok (.post (client.base.atRoot ["assets", "v1", "assets"]) client.key
      [.text "request" (client.metadata request).compact,
        .file "fileContent" (request.hash ++ "." ++ request.extension) request.contentType
          request.bytes]) := by
  have plain : ∀ name ∈ ["assets", "v1", "assets"], Url.IsPlain name := by
    simp [isPlain_assets, isPlain_version]
  have joined : client.base.join "/assets/v1/assets" = .ok _ := Url.join_rooted plain path (by decide)
  rw [createRequest, joined]
  rfl

/-- However many slashes an operation begins with. -/
theorem Client.pollRequest_eq (slashes : Nat) {names : List String} (some : names ≠ [])
    (plain : ∀ name ∈ names, Url.IsPlain name) :
    client.pollRequest (String.ofList (List.replicate slashes '/') ++ "/".intercalate names) =
      .ok (.get (client.base.atRoot (["assets", "v1"] ++ names)) client.key) := by
  have trimmed := dropWhile_operation slashes some plain
  have text : ("/assets/v1/" ++ "/".intercalate names).toList = Url.rooted (["assets", "v1"] ++ names) := by
    rw [Url.rooted, List.flatMap_append, ← Url.rooted, ← Url.rooted, Url.rooted_eq_intercalate some,
      String.toList_append]
    rfl
  have both : ∀ name ∈ ["assets", "v1"] ++ names, Url.IsPlain name :=
    List.forall_mem_cons.mpr ⟨isPlain_assets, List.forall_mem_cons.mpr ⟨isPlain_version, plain⟩⟩
  rw [pollRequest, trimmed, String.ofList_toList, Url.join_rooted both path text]
  rfl

end Requests

/-- The uploader of a run with a key asks at the root of where the configured base is: at the scheme and
the authority of the base, with the steps of the store's own paths, whether or not the base ends in a
slash. These are the URLs under the base just if the base has no path. -/
theorem Uploader.ofEnvironment_requests {env : Environment} {config : UploadConfig} {key : String}
    {creator : Creator} {base : Url} (keyed : env.filled? "ROBLOX_API_KEY" = some key)
    (named : config.creator.or (Creator.ofEnvironment? env) = some creator)
    (parsed : Url.parse config.baseUrl = .ok base) (web : base.scheme = "http" ∨ base.scheme = "https")
    (send : Request → m (Option Reply)) :
    ∃ uploader, Uploader.ofEnvironment env config send = .ok uploader ∧
      (∀ request : UploadRequest, uploader.create request = exchange send (.ok (.post
        (base.atRoot ["assets", "v1", "assets"]) key
        [.text "request" (Client.metadata ⟨key, base, config.assetType, creator⟩ request).compact,
          .file "fileContent" (request.hash ++ "." ++ request.extension) request.contentType
            request.bytes]))) ∧
      (∀ (slashes : Nat) (names : List String), names ≠ [] → (∀ name ∈ names, Url.IsPlain name) →
        uploader.poll (String.ofList (List.replicate slashes '/') ++ "/".intercalate names) =
          exchange send (.ok (.get (base.atRoot (["assets", "v1"] ++ names)) key))) ∧
      ∀ names, base.atRoot names = base.under names ↔ base.path = .steps [""] := by
  obtain ⟨steps, path, some⟩ : ∃ steps, base.path = .steps steps ∧ steps ≠ [] :=
    Url.exists_steps_of_parse parsed (by rcases web with web | web <;> rw [web] <;> rfl)
  let client : Client := ⟨key, base, config.assetType, creator⟩
  refine ⟨client.uploader send, ?_, fun request => ?_, fun slashes names listed plain => ?_,
    fun names => ?_⟩
  · rw [Uploader.ofEnvironment, Client.ofEnvironment, keyed]
    simp only [named, parsed]
    rfl
  · simp only [Client.uploader, client.createRequest_eq path, client]
  · simp only [Client.uploader, client.pollRequest_eq path slashes listed plain, client]
  · rw [eq_comm, Url.under_eq_atRoot_iff path some, path, Url.Path.steps.injEq]

/-- The variables of a run with a key. -/
def keyed : Environment := ⟨[("ROBLOX_API_KEY", "key-1")]⟩

def settingsFor (baseUrl : String) : UploadConfig :=
  { UploadConfig.default with baseUrl, creator := some (.user "77") }

/-- A URL of the server with the steps of its path. -/
def atServer (steps : List String) : Url :=
  ⟨"http", some ⟨none, .ipv6 [0, 0, 0, 0, 0, 0, 0, 1], some 8080⟩, .steps steps, none, none⟩

/-- A server that answers at the path of one operation. -/
def answer : Request → Id (Option Reply)
  | .get url _ => if url.target = "/assets/v1/operations/abc" then some ⟨429, "", some "5"⟩ else none
  | .post _ _ _ => none

theorem Uploader.ofEnvironment_requests_server : ∃ uploader : Uploader Id,
    Uploader.ofEnvironment keyed (settingsFor "http://[::1]:8080/") answer = .ok uploader ∧
    uploader.poll "//operations/abc" = exchange answer
      (.ok (.get ((atServer [""]).under ["assets", "v1", "operations", "abc"]) "key-1")) := by
  obtain ⟨uploader, made, -, polled, below⟩ := Uploader.ofEnvironment_requests
    (by cbv : keyed.filled? "ROBLOX_API_KEY" = some "key-1")
    (by rfl : (settingsFor "http://[::1]:8080/").creator.or (Creator.ofEnvironment? keyed) =
      some (.user "77"))
    (by cbv : Url.parse (settingsFor "http://[::1]:8080/").baseUrl = .ok (atServer [""])) (.inl rfl) answer
  have plain : ∀ name ∈ ["operations", "abc"], Url.IsPlain name := by
    have operations : Url.IsPlain "operations" := ⟨by decide, by cbv, by cbv, by cbv⟩
    have abc : Url.IsPlain "abc" := ⟨by decide, by cbv, by cbv, by cbv⟩
    simp [operations, abc]
  have text : String.ofList (List.replicate 2 '/') ++ "/".intercalate ["operations", "abc"] =
    "//operations/abc" := by decide
  have asked := polled 2 ["operations", "abc"] (by decide) plain
  rw [text, (below _).mpr rfl] at asked
  exact ⟨uploader, made, asked⟩

/-- A base with a path of its own is asked beside that path, not under it. -/
theorem Client.pollRequest_proxy : ∃ client url,
    Client.ofEnvironment keyed (settingsFor "http://[::1]:8080/proxy") = .ok (some client) ∧
    client.pollRequest "operations/abc" = .ok (.get url "key-1") ∧
    url.target = "/assets/v1/operations/abc" ∧
    (client.base.under ["assets", "v1", "operations", "abc"]).target =
      "/proxy/assets/v1/operations/abc" := by
  refine ⟨⟨"key-1", atServer ["proxy"], "Decal", .user "77"⟩,
    atServer ["assets", "v1", "operations", "abc"], by cbv, by cbv, by cbv, by cbv⟩

end Store
end DesignCompiler
