/-
  Storage paths below a directory.

  The path of an artifact is made by joining texts, and read again when the artifact is fetched.

  * `GsPath.parse_eq_ok_iff`: which texts are read, and as which path;
  * `GsPath.parse_text`: a path that is written is read back;
  * `GsPath.below_scheme`, `GsPath.parts_below`: what stands below a storage directory;
  * `GsPath.parse_below`, `GsPath.parse_below_of_parse`: so it is a storage path;
  * `GsPath.parse_below_bare`: it is none where nothing but slashes follow the scheme of the
    directory;
  * `CacheProxy.addresses_clean`: all of it together, with the addresses of a proxy.
-/
import Mathlib.Data.List.DropRight
import Reimage.CacheProxy
import Reimage.Proofs.Path
import Reimage.Request

namespace Reimage

open Reimage.Path

namespace GsPath

/-! ## Reading and writing -/

theorem dropStart?_scheme (rest : String) :
    Text.dropStart? scheme.toList (scheme ++ rest).toList = some rest.toList := by
  simp [Text.dropStart?, String.toList_append]

/-- Reading what follows the scheme. -/
theorem parse_scheme (rest : String) : parse (scheme ++ rest) =
    match parts rest with
    | [] => .error (.invalidSource ("missing bucket in " ++ (scheme ++ rest)))
    | bucket :: object => .ok ⟨bucket, object⟩ := by
  rw [parse, dropStart?_scheme]
  rfl

/-- A text that does not begin with the scheme. -/
theorem parse_of_not_isPrefix {url : String} (h : ¬scheme.toList <+: url.toList) :
    parse url = .error (.invalidSource ("gs url must begin with 'gs://', instead have, " ++ url)) := by
  have hdrop : Text.dropStart? scheme.toList url.toList = none := by
    rw [Text.dropStart?, if_neg (by simpa using h)]
  rw [parse, hdrop]

theorem scheme_isPrefix_iff {url : String} :
    scheme.toList <+: url.toList ↔ ∃ rest, url = scheme ++ rest := by
  constructor
  · rintro ⟨rest, hrest⟩
    refine ⟨String.ofList rest, ?_⟩
    rw [← String.toList_inj, ← hrest]
    simp
  · rintro ⟨rest, rfl⟩
    simp [String.toList_append]

/-- **What is read.** A text is read as a path if and only if the components after its scheme are
    those of the path. -/
theorem parse_eq_ok_iff {url : String} {p : GsPath} :
    parse url = .ok p ↔ ∃ rest, url = scheme ++ rest ∧ parts rest = p.bucket :: p.object := by
  constructor
  · intro h
    by_cases hscheme : scheme.toList <+: url.toList
    · obtain ⟨rest, rfl⟩ := scheme_isPrefix_iff.1 hscheme
      refine ⟨rest, rfl, ?_⟩
      rw [parse_scheme] at h
      split at h
      · cases h
      · rename_i hparts
        cases h
        exact hparts
    · rw [parse_of_not_isPrefix hscheme] at h
      cases h
  · rintro ⟨rest, rfl, hparts⟩
    rw [parse_scheme, hparts]

/-- A text that is not read is a bad source. -/
theorem invalidSource_of_parse {url : String} {e : Error} (h : parse url = .error e) :
    ∃ text, e = .invalidSource text := by
  by_cases hscheme : scheme.toList <+: url.toList
  · obtain ⟨rest, rfl⟩ := scheme_isPrefix_iff.1 hscheme
    rw [parse_scheme] at h
    split at h
    · cases h
      exact ⟨_, rfl⟩
    · cases h
  · rw [parse_of_not_isPrefix hscheme] at h
    cases h
    exact ⟨_, rfl⟩

section

variable {url : String} {p : GsPath} (h : parse url = .ok p)
include h

/-- The components of a path that was read are names. -/
theorem isName_of_parse : ∀ name ∈ p.bucket :: p.object, IsName name := by
  obtain ⟨rest, -, hparts⟩ := parse_eq_ok_iff.1 h
  intro name hname
  rw [← hparts] at hname
  exact isName_of_mem_parts hname

/-- What is written of a path that was read is cut into its components. -/
theorem split_text : Text.split '/' p.text = p.bucket :: p.object := by
  have hslash : ∀ name ∈ p.bucket :: p.object, '/' ∉ name.toList := by
    intro name hname
    exact (isName_of_parse h name hname).slash_notMem
  exact Text.split_join hslash (by simp)

/-- **A path that is written is read back.** -/
theorem parse_text : parse (scheme ++ p.text) = .ok p := by
  rw [parse_scheme, text, parts_join (isName_of_parse h)]

end

/-- A path that is read has the components after the scheme, and is read again. -/
theorem text_of_parse {u : String} {o : GsPath} (h : parse u = .ok o) :
    (∃ rest, u = scheme ++ rest ∧ Text.split '/' o.text =
      (Text.split '/' rest).filter fun c => c != "" && c != ".") ∧
    (∀ c ∈ Text.split '/' o.text, c ≠ "" ∧ c ≠ ".") ∧
    parse (scheme ++ o.text) = .ok o := by
  obtain ⟨rest, hu, hparts⟩ := parse_eq_ok_iff.1 h
  have hsplit : Text.split '/' o.text = parts rest := by
    rw [split_text h, hparts]
  refine ⟨⟨rest, hu, ?_⟩, ?_, parse_text h⟩
  · rw [hsplit, parts_eq_filter]
  · intro c hc
    rw [hsplit] at hc
    have hname := isName_of_mem_parts hc
    exact ⟨hname.ne_empty, hname.ne_dot⟩

/-! ## Artifacts -/

/-- Nothing but slashes follow the scheme. -/
def Bare (url : String) : Prop := ∀ c ∈ url.toList.drop scheme.toList.length, c = '/'

instance (url : String) : Decidable (Bare url) := List.decidableBAll _ _

/-- The parts of an artifact's name: it has one, and does not begin with a slash. -/
structure Names (relative : String) : Prop where
  components_ne_nil : Path.components relative.toList ≠ []
  head?_ne : relative.toList.head? ≠ some '/'

theorem toList_below (parent relative : String) : (below parent relative).toList =
    parent.toList.rdropWhile (· == '/') ++ '/' :: relative.toList := by
  simp [below, Text.toList_trimEndChar, String.toList_append]

theorem rdropWhile_append_of_ne {start rest : List Char} (h : ∃ c ∈ rest, c ≠ '/') :
    (start ++ rest).rdropWhile (· == '/') = start ++ rest.rdropWhile (· == '/') := by
  have hne : rest.reverse.dropWhile (· == '/') ≠ [] := by
    simpa [List.dropWhile_eq_nil_iff] using h
  rw [List.rdropWhile, List.rdropWhile, List.reverse_append, List.dropWhile_append,
    if_neg (by simpa using hne), List.reverse_append, List.reverse_reverse]

theorem rdropWhile_append_slashes {start slashes : List Char} (h : ∀ c ∈ slashes, c = '/') :
    (start ++ slashes).rdropWhile (· == '/') = start.rdropWhile (· == '/') := by
  rw [List.rdropWhile, List.reverse_append, List.dropWhile_append, if_pos (by simpa using h),
    List.rdropWhile]

/-- The scheme of a directory stays, unless nothing but slashes follow it. -/
theorem below_scheme {rest : String} (h : ∃ c ∈ rest.toList, c ≠ '/') (relative : String) :
    below (scheme ++ rest) relative = scheme ++ below rest relative := by
  rw [← String.toList_inj, String.toList_append, toList_below, toList_below, String.toList_append,
    rdropWhile_append_of_ne h, List.append_assoc]

theorem parts_below (parent relative : String) :
    parts (below parent relative) = parts parent ++ parts relative := by
  rw [below, parts_slash, parts_trimEnd]

/-- **What stands below a storage directory is a storage path.** -/
theorem parse_below {parent relative : String} (h : scheme.toList <+: parent.toList)
    (hp : ¬ Bare parent) (hr : Names relative) :
    ∃ path, parse (below parent relative) = .ok path := by
  obtain ⟨rest, rfl⟩ := scheme_isPrefix_iff.1 h
  have hrest : ∃ c ∈ rest.toList, c ≠ '/' := by
    simpa [Bare, String.toList_append] using hp
  have hrelative : parts relative ≠ [] := by
    simpa [parts] using hr.components_ne_nil
  rw [below_scheme hrest, parse_scheme, parts_below]
  split
  · rename_i hnil
    exact absurd hnil (List.append_ne_nil_of_right_ne_nil _ hrelative)
  · exact ⟨_, rfl⟩

/-- A text with a component is not only slashes. -/
theorem exists_ne_slash {rest : String} (h : parts rest ≠ []) : ∃ c ∈ rest.toList, c ≠ '/' := by
  by_contra hall
  push Not at hall
  have hnone : components ([] ++ rest.toList) = [] := components_append_slashes hall
  rw [List.nil_append] at hnone
  exact h (by rw [parts, hnone]; rfl)

/-- **What stands below a storage path**, whatever slashes it ends in. -/
theorem parse_below_of_parse {parent : String} {p : GsPath} (h : parse parent = .ok p)
    (relative : String) :
    parse (below parent relative) = .ok ⟨p.bucket, p.object ++ parts relative⟩ := by
  obtain ⟨rest, rfl, hparts⟩ := parse_eq_ok_iff.1 h
  have hrest : ∃ c ∈ rest.toList, c ≠ '/' := exists_ne_slash (by simp [hparts])
  refine parse_eq_ok_iff.2 ⟨_, below_scheme hrest relative, ?_⟩
  rw [parts_below, hparts]
  rfl

/-- What is written of it. -/
theorem text_append {p : GsPath} {names : List String} (h : names ≠ []) :
    text ⟨p.bucket, p.object ++ names⟩ = p.text ++ "/" ++ Text.join "/" names := by
  have hcons : p.bucket :: p.object ≠ [] := by simp
  exact String.intercalate_append_of_ne_nil hcons h

/-- What is written of an artifact, if its name has a component. -/
theorem text_artifact {r : Request} {o : GsPath} {relative : String}
    (h : parse r.imagePath = .ok o)
    (hrelative : ∃ c ∈ Text.split '/' relative, c ≠ "" ∧ c ≠ ".") :
    ∃ path, parse (r.artifact relative) = .ok path ∧ path.text = o.text ++ "/" ++
      Text.join "/" ((Text.split '/' relative).filter fun c => c != "" && c != ".") := by
  have hne : parts relative ≠ [] := by
    obtain ⟨c, hc, hempty, hdot⟩ := hrelative
    rw [parts_eq_filter]
    exact List.ne_nil_of_mem (List.mem_filter.2 ⟨hc, by simp [hempty, hdot]⟩)
  refine ⟨_, parse_below_of_parse h relative, ?_⟩
  rw [text_append hne, parts_eq_filter]

/-- Where nothing but slashes follow the scheme, they are taken for the end of the directory, and
    with them the scheme is lost. -/
theorem parse_below_bare {parent relative : String} (h : scheme.toList <+: parent.toList)
    (hp : Bare parent) (hr : Names relative) :
    ∃ text, parse (below parent relative) = .error (.invalidSource text) := by
  obtain ⟨rest, h⟩ := h
  have hrest : ∀ c ∈ rest, c = '/' := by
    simpa [Bare, ← h] using hp
  have hbelow : (below parent relative).toList = "gs:/".toList ++ relative.toList := by
    have hscheme : scheme.toList.rdropWhile (· == '/') = "gs:".toList := by decide
    rw [toList_below, ← h, rdropWhile_append_slashes hrest, hscheme]
    simp
  have hnot : ¬scheme.toList <+: (below parent relative).toList := by
    rw [hbelow]
    cases hrel : relative.toList with
    | nil => decide
    | cons c cs =>
      have hc : '/' ≠ c := by simpa [hrel, eq_comm] using hr.head?_ne
      simp [scheme, hc]
  exact ⟨_, parse_of_not_isPrefix hnot⟩

end GsPath

namespace CacheProxy

variable {address : String} {source : Source}

theorem url_of_endpoint_ok (ha : address ≠ "") {endpoint : String}
    (h : source.endpoint = .ok endpoint) :
    url address source = .ok (Text.trimEndChar '/' address ++ endpoint) := by
  have hempty : address.isEmpty = false := by simpa using ha
  rw [url, h]
  exact if_neg (by simp [hempty])

/-- A malformed source is reported whatever the address is. -/
theorem url_of_endpoint_error {e : Error} (h : source.endpoint = .error e) :
    url address source = .error e := by
  rw [url, h]
  rfl

/-- What is removed from an address are slashes, and all that it ends in. -/
theorem trimEndChar_slashes (address : String) :
    (∃ slashes, address = Text.trimEndChar '/' address ++ slashes ∧
      ∀ c ∈ slashes.toList, c = '/') ∧ endsInSlash (Text.trimEndChar '/' address) = false := by
  refine ⟨⟨.ofList (address.toList.rtakeWhile (· == '/')), ?_, ?_⟩, ?_⟩
  · rw [← String.toList_inj, String.toList_append, Text.toList_trimEndChar, String.toList_ofList,
      List.rdropWhile_append_rtakeWhile]
  · intro c hc
    rw [String.toList_ofList] at hc
    simpa using List.mem_rtakeWhile_imp hc
  · rw [endsInSlash, Text.toList_trimEndChar]
    by_cases hnil : address.toList.rdropWhile (· == '/') = []
    · rw [hnil]
      rfl
    · have hlast := List.rdropWhile_last_not (· == '/') _ hnil
      rw [List.getLast?_eq_some_getLast hnil]
      simpa using hlast

/-- The addresses of a path that is read. -/
theorem url_of_parse {u : String} {o : GsPath} (ha : address ≠ "") (h : GsPath.parse u = .ok o) :
    url address (.file u) = .ok (Text.trimEndChar '/' address ++ "/download/" ++ o.text) ∧
    url address (.archive u) = .ok (Text.trimEndChar '/' address ++ "/decompress/" ++ o.text) ∧
    ∀ name, url address (.member u name) =
      .ok (Text.trimEndChar '/' address ++ "/extract/" ++ o.text ++ "?file=" ++ name) := by
  refine ⟨?_, ?_, ?_⟩
  · rw [String.append_assoc]
    exact url_of_endpoint_ok ha (by rw [Source.endpoint, h]; rfl)
  · rw [String.append_assoc]
    exact url_of_endpoint_ok ha (by rw [Source.endpoint, h]; rfl)
  · intro name
    simp only [String.append_assoc]
    refine url_of_endpoint_ok ha ?_
    rw [Source.endpoint, h]
    simp only [Except.map, String.append_assoc]

/-- A source that is not read has no address. -/
theorem url_of_parse_error {u : String} {e : Error} (h : GsPath.parse u = .error e)
    (address name : String) :
    url address (.file u) = .error e ∧ url address (.archive u) = .error e ∧
      url address (.member u name) = .error e := by
  refine ⟨?_, ?_, ?_⟩
  all_goals exact url_of_endpoint_error (by rw [Source.endpoint, h]; rfl)

/-- **Storage paths and their addresses.** A path that is read has the components that follow the
    scheme, in their order, those left out that are empty or `.`, and it is read again from what is
    written of it. Below an image path that is read, whatever slashes that ends in, an artifact is
    what is written of the image path, a slash, and the components of its own name. With a proxy,
    the address of an artifact is that of the proxy without the slashes at its end, the endpoint,
    what is written of the path, and the name of the member if it is one of an archive. A source
    that is not read is reported as such, whatever the address of the proxy is. -/
theorem addresses_clean :
    (∀ u o, GsPath.parse u = .ok o →
      (∃ rest, u = GsPath.scheme ++ rest ∧ Text.split '/' o.text =
        (Text.split '/' rest).filter fun c => c != "" && c != ".") ∧
      (∀ c ∈ Text.split '/' o.text, c ≠ "" ∧ c ≠ ".") ∧
      GsPath.parse (GsPath.scheme ++ o.text) = .ok o) ∧
    (∀ (r : Request) o relative, GsPath.parse r.imagePath = .ok o →
      (∃ c ∈ Text.split '/' relative, c ≠ "" ∧ c ≠ ".") →
      ∃ path, GsPath.parse (r.artifact relative) = .ok path ∧ path.text = o.text ++ "/" ++
        Text.join "/" ((Text.split '/' relative).filter fun c => c != "" && c != ".")) ∧
    (∀ address base, address ≠ "" → base = Text.trimEndChar '/' address →
      ((∃ slashes, address = base ++ slashes ∧ ∀ c ∈ slashes.toList, c = '/') ∧
        endsInSlash base = false) ∧
      ∀ u o, GsPath.parse u = .ok o →
        url address (.file u) = .ok (base ++ "/download/" ++ o.text) ∧
        url address (.archive u) = .ok (base ++ "/decompress/" ++ o.text) ∧
        ∀ name, url address (.member u name) =
          .ok (base ++ "/extract/" ++ o.text ++ "?file=" ++ name)) ∧
    ∀ u e, GsPath.parse u = .error e → (∃ text, e = .invalidSource text) ∧
      ∀ address name, url address (.file u) = .error e ∧ url address (.archive u) = .error e ∧
        url address (.member u name) = .error e := by
  refine ⟨?_, ?_, ?_, ?_⟩
  · intro u o h
    exact GsPath.text_of_parse h
  · intro r o relative h hrelative
    exact GsPath.text_artifact h hrelative
  · rintro address base haddress rfl
    exact ⟨trimEndChar_slashes address, fun u o h => url_of_parse haddress h⟩
  · intro u e h
    exact ⟨GsPath.invalidSource_of_parse h, url_of_parse_error h⟩

/-- A request whose image path is not written cleanly. -/
def untidyRequest : Request := { imagePath := "gs://bucket/./build//R100//" }

/-- An artifact of that request, what is read again, and a path without a bucket. -/
theorem addresses_clean_untidy :
    url "http://cache:8082//" (.file (untidyRequest.artifact "dlc//./termina/dlc.img")) =
      .ok "http://cache:8082/download/bucket/build/R100/dlc/termina/dlc.img" ∧
    GsPath.parse "gs://bucket/build/R100" = GsPath.parse untidyRequest.imagePath ∧
    ∃ text, url "" (.archive "gs://./") = .error (.invalidSource text) := by
  obtain ⟨hread, hbelow, haddress, hrefused⟩ := addresses_clean
  have hpath : GsPath.parse untidyRequest.imagePath = .ok ⟨"bucket", ["build", "R100"]⟩ := rfl
  have hnone : GsPath.parse "gs://./" = .error (.invalidSource "missing bucket in gs://./") := rfl
  refine ⟨?_, ?_, ?_⟩
  · obtain ⟨path, hartifact, htext⟩ := hbelow untidyRequest _ "dlc//./termina/dlc.img" hpath
      (by decide)
    have hserved := (haddress "http://cache:8082//" "http://cache:8082" (by decide) (by decide)).2
    rw [(hserved _ _ hartifact).1, htext]
    exact congrArg Except.ok (by decide)
  · rw [hpath]
    exact (hread _ _ hpath).2.2
  · have hrefusal := (hrefused _ _ hnone).2 "" ""
    exact ⟨_, hrefusal.2.1⟩

end CacheProxy

end Reimage
