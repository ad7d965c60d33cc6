import FleetPosture.Fleet.Directory
import FleetPosture.Proofs.Net.Url

/-! Where a directory is asked for the machines of a deployment: below the last slash of its URL.
That is below the URL itself, as the documentation has it, exactly if the URL ends with a slash. -/

namespace FleetPosture.Fleet.Directory

open Net (Url HttpRequest HttpReply)

def lessSlash (s : String) : String :=
  if s.toList.getLast? = some '/' then String.ofList s.toList.dropLast else s

/-- Where the machines are to be listed according to the documentation. -/
def documentedUrl (base : Url) (deployment : String) : String :=
  lessSlash base.text ++ "/deployments/" ++ deployment ++ "/vms"

theorem lessSlash_append (place : String) : lessSlash (place ++ "/") = place := by
  have ending : (place ++ "/").toList = place.toList ++ ['/'] := String.toList_append
  rw [lessSlash, ending, List.getLast?_concat, if_pos rfl, List.dropLast_concat,
    String.ofList_toList]

theorem lessSlash_of_getLast? {s : String} (h : s.toList.getLast? ≠ some '/') : lessSlash s = s :=
  if_neg h

theorem getLast?_of_slashFree {place last : String} (slashFree : '/' ∉ last.toList) :
    (place ++ "/" ++ last).toList.getLast? = some '/' ↔ last = "" := by
  have parts : (place ++ "/" ++ last).toList = place.toList ++ '/' :: last.toList := by
    rw [String.toList_append, String.toList_append, List.append_assoc]
    rfl
  rw [parts]
  constructor
  · intro slash
    by_contra nonempty
    have some : last.toList ≠ [] := fun e => nonempty (String.toList_inj.1 e)
    rw [List.getLast?_append_of_ne_nil _ (List.cons_ne_nil _ _),
      List.getLast?_cons_of_ne_nil some] at slash
    exact slashFree (List.mem_of_getLast? slash)
  · rintro rfl
    exact List.getLast?_concat

theorem isPlainName_of_mem {deployment : String} (named : Url.IsPlainName deployment) :
    ∀ name ∈ ["deployments", deployment, "vms"], Url.IsPlainName name := by
  simp only [List.forall_mem_cons]
  exact ⟨by decide, named, by decide, List.forall_mem_nil _⟩

theorem exists_listUrl {d : Directory} {base : Url} (parsed : Url.parse d.url = .ok base)
    (web : base.IsWeb) (named : Url.IsPlainName d.deployment) :
    ∃ url place last, d.listUrl = .ok url ∧ base.text = place ++ "/" ++ last ∧ '/' ∉ last.toList ∧
      url.text = place ++ "/deployments/" ++ d.deployment ++ "/vms" := by
  obtain ⟨authority, list, -, path, nonempty, slashFree⟩ :=
    Url.exists_segments_of_parse parsed web.scheme
  obtain ⟨segments, last, rfl⟩ := (List.eq_nil_or_concat' list).resolve_left nonempty
  let url : Url := ⟨base.scheme, base.authority,
    .segments (segments ++ ["deployments", d.deployment, "vms"]), none, none⟩
  have reference : "deployments/" ++ d.deployment ++ "/vms" =
      Text.join "/" ["deployments", d.deployment, "vms"] := by
    rw [← String.toList_inj, Url.toList_join_names]
    simp [List.intercalate_cons_cons]
  have joined : base.join ("deployments/" ++ d.deployment ++ "/vms") = .ok url := by
    rw [reference, Url.join_names path (isPlainName_of_mem named) (List.cons_ne_nil _ _),
      List.dropLast_concat]
  have listed : d.listUrl = .ok url := by
    rw [listUrl, parsed]
    show (base.join _).mapError _ = _
    rw [joined]
    rfl
  have baseText := Url.text_of_segments path web.query web.fragment
  have urlText := Url.text_of_segments (u := url) rfl rfl rfl
  have origin : url.origin = base.origin := rfl
  refine ⟨url, base.origin ++ String.join (segments.map ("/" ++ ·)), last, listed, ?_,
    slashFree last List.mem_concat_self, ?_⟩
  · rw [baseText]
    simp [String.append_assoc]
  · rw [urlText, origin, ← String.toList_inj]
    simp

/-- The machines are asked for below the last slash of the directory's URL, and that is where the
documentation has it exactly if the URL ends with this slash. -/
theorem listUrl_documented_iff (d : Directory) {base : Url} (parsed : Url.parse d.url = .ok base)
    (web : base.IsWeb) (named : Url.IsPlainName d.deployment) :
    ∃ url place last, d.listUrl = .ok url ∧ base.text = place ++ "/" ++ last ∧ '/' ∉ last.toList ∧
      url.text = place ++ "/deployments/" ++ d.deployment ++ "/vms" ∧
      (url.text = documentedUrl base d.deployment ↔ base.text.toList.getLast? = some '/') ∧
      (∀ {m : Type → Type} [Monad m] (fetch : HttpRequest → m (Except Failure HttpReply)),
        d.list fetch = (do pure (read url (← fetch (d.request url))))) ∧
      (d.request url).url = url := by
  obtain ⟨url, place, last, listed, baseText, slashFree, urlText⟩ := exists_listUrl parsed web named
  have asked {m : Type → Type} [Monad m] (fetch : HttpRequest → m (Except Failure HttpReply)) :
      d.list fetch = (do pure (read url (← fetch (d.request url)))) := by
    rw [list, listed]
  refine ⟨url, place, last, listed, baseText, slashFree, urlText, ?_, asked, rfl⟩
  constructor
  · intro documented
    by_contra unended
    rw [documentedUrl, lessSlash_of_getLast? unended, urlText, baseText] at documented
    -- with the last segment kept the documented URL is longer
    have lengths := congrArg String.length documented
    have slash : "/".length = 1 := by decide
    simp only [String.length_append, slash] at lengths
    omega
  · intro ends
    rw [baseText, getLast?_of_slashFree slashFree] at ends
    rw [documentedUrl, baseText, ends, String.append_empty, lessSlash_append, urlText]

theorem listUrl_documented_ended :
    let d : Directory := ⟨"https://bosh.example.com:25555/api/", "cf-prod_1", none, 30⟩
    let base : Url :=
      ⟨"https", some ⟨"", none, "bosh.example.com", some 25555⟩, .segments ["api", ""], none, none⟩
    Url.parse d.url = .ok base ∧ base.IsWeb ∧ Url.IsPlainName d.deployment ∧
      ∃ url, d.listUrl = .ok url ∧ url.text = documentedUrl base d.deployment := by
  intro d base
  have parsed : Url.parse d.url = .ok base := by decide +kernel
  have web : base.IsWeb := ⟨.inr rfl, rfl, rfl⟩
  have named : Url.IsPlainName d.deployment := by decide
  obtain ⟨url, _, _, listed, _, _, _, documented, _⟩ := listUrl_documented_iff d parsed web named
  exact ⟨parsed, web, named, url, listed, documented.2 (by decide)⟩

theorem listUrl_undocumented :
    let d : Directory := ⟨"http://localhost:25555/api", "cf", none, 30⟩
    let base : Url :=
      ⟨"http", some ⟨"", none, "localhost", some 25555⟩, .segments ["api"], none, none⟩
    Url.parse d.url = .ok base ∧ base.IsWeb ∧ Url.IsPlainName d.deployment ∧
      documentedUrl base d.deployment = "http://localhost:25555/api/deployments/cf/vms" ∧
      ∃ url, d.listUrl = .ok url ∧ url.text = "http://localhost:25555/deployments/cf/vms" ∧
        url.text ≠ documentedUrl base d.deployment := by
  intro d base
  let url : Url := { base with path := .segments ["deployments", "cf", "vms"] }
  have parsed : Url.parse d.url = .ok base := by decide +kernel
  have listed : d.listUrl = .ok url := by decide +kernel
  have text : url.text = "http://localhost:25555/deployments/cf/vms" := by decide +kernel
  have baseText : base.text = "http://localhost:25555/api" := by decide +kernel
  have documented :
      documentedUrl base d.deployment = "http://localhost:25555/api/deployments/cf/vms" := by
    rw [documentedUrl, baseText, lessSlash_of_getLast? (by decide)]
    rfl
  have named : Url.IsPlainName d.deployment := by decide
  refine ⟨parsed, ⟨.inl rfl, rfl, rfl⟩, named, documented, url, listed, text, ?_⟩
  rw [text, documented]
  decide

end FleetPosture.Fleet.Directory
