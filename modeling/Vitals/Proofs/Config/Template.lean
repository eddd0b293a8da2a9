/-
  The file in which a configuration starts, with a URL written in.

  * `linesWith`: its lines. `setUrl_exampleLines`: they are what is written.
  * `parse?_linesWith`: the file is read back, with this URL and all else as usual.
  * `render_url`: which URLs are written, and what comes of it.
-/
import Vitals.Config.Template
import Vitals.Proofs.Config.Layers
import Vitals.Proofs.Toml.Statement

namespace Vitals.Config

open Toml

/-- Where the lines of the file give the URL. -/
def urlLine : Nat := 8

/-- The lines of the file with another URL. -/
def linesWith (url : String) : List String := exampleLines.set urlLine s!"url = {quote url}"

theorem setUrl_exampleLines (url : String) :
    setUrl (quote url) false exampleLines = linesWith url := rfl

theorem toList_unlines (lines : List String) : (unlines lines).toList = charsOf lines := by
  simp [unlines, charsOf, String.toList_join, List.flatMap_map]

/-- What the lines of the file say with a URL written in. -/
def exampleStatements (url : String) : List Statement := [
  .header ["connection"],
  .field ["url"] (.string url),
  .field ["probe_interval_seconds"] (.integer 3),
  .field ["tail_interval_seconds"] (.integer 3),
  .header ["sync"],
  .field ["request_log_capacity"] (.integer 100),
  .header ["rules"],
  .header ["logging"],
  .field ["level"] (.string "info"),
  .field ["format"] (.string "pretty")]

theorem filter_linesWith (url : String) :
    (linesWith url).filter (!isRemark ·) =
      ["[connection]", s!"url = {quote url}", "probe_interval_seconds = 3",
        "tail_interval_seconds = 3", "[sync]", "request_log_capacity = 100", "[rules]",
        "[logging]", "level = \"info\"", "format = \"pretty\""] := by
  have hurl : isRemark s!"url = {quote url}" = false :=
    isRemark_field "url" (quote url) (by decide)
  have habove : (exampleLines.take urlLine).filter (!isRemark ·) = ["[connection]"] := by
    decide +kernel
  have hbelow : (exampleLines.drop (urlLine + 1)).filter (!isRemark ·) =
      ["probe_interval_seconds = 3",
        "tail_interval_seconds = 3", "[sync]", "request_log_capacity = 100", "[rules]",
        "[logging]", "level = \"info\"", "format = \"pretty\""] := by
    decide +kernel
  rw [linesWith, List.set_eq_take_append_cons_drop, if_pos (by decide), List.filter_append,
    List.filter_cons_of_pos (by simp [hurl]), habove, hbelow]
  rfl

theorem reads_count (key word : String) (n : Int) (hkey : IsBare key)
    (hword : word.toList ≠ [] ∧ word.toList.all Scalar.isWordChar = true)
    (hn : Scalar.ofWord? word.toList = some (.integer n)) :
    Reads s!"{key} = {word}" (.field [key] (.integer n)) :=
  reads_field key word hkey (isValue_word hword.1 (List.all_eq_true.1 hword.2) hn)

theorem reads_text (key s : String) (hkey : IsBare key) :
    Reads s!"{key} = {quote s}" (.field [key] (.string s)) :=
  reads_field key (quote s) hkey (isValue_quote s)

theorem reads_linesWith (url : String) :
    List.Forall₂ Reads ((linesWith url).filter (!isRemark ·)) (exampleStatements url) := by
  rw [filter_linesWith]
  have hconnection : Reads "[connection]" _ := reads_header "connection" (by decide)
  have hsync : Reads "[sync]" _ := reads_header "sync" (by decide)
  have hrules : Reads "[rules]" _ := reads_header "rules" (by decide)
  have hlogging : Reads "[logging]" _ := reads_header "logging" (by decide)
  have hprobe : Reads "probe_interval_seconds = 3" _ :=
    reads_count "probe_interval_seconds" "3" 3 (by decide) (by decide) rfl
  have htail : Reads "tail_interval_seconds = 3" _ :=
    reads_count "tail_interval_seconds" "3" 3 (by decide) (by decide) rfl
  have hcapacity : Reads "request_log_capacity = 100" _ :=
    reads_count "request_log_capacity" "100" 100 (by decide) (by decide) rfl
  have hlevel : Reads "level = \"info\"" _ := reads_text "level" "info" (by decide)
  have hformat : Reads "format = \"pretty\"" _ := reads_text "format" "pretty" (by decide)
  exact .cons hconnection <| .cons (reads_text "url" url (by decide)) <| .cons hprobe <|
    .cons htail <| .cons hsync <| .cons hcapacity <| .cons hrules <| .cons hlogging <|
    .cons hlevel <| .cons hformat .nil

theorem ofFields?_exampleStatements (url : String) :
    (((exampleStatements url).foldlM Document.add? Document.empty).map Document.fields).bind
      ofFields? = some { usual with url := url } := rfl

/-- **A URL that is written in is read back**, and all else is as usual. -/
theorem parse?_linesWith (url : String) :
    parse? (unlines (linesWith url)) = some { usual with url := url } := by
  have htext := toList_unlines (linesWith url)
  have hmark : dropMark (unlines (linesWith url)).toList = (unlines (linesWith url)).toList := by
    rw [htext]
    rfl
  rw [parse?, parse?_of_reads (reads_linesWith url) htext hmark]
  exact ofFields?_exampleStatements url

theorem exampleLines_eq : exampleLines = linesWith usual.url := by decide +kernel

theorem parse?_template_none : parse? (template none) = some usual := by
  rw [template, exampleLines_eq]
  exact parse?_linesWith usual.url

/-! ## The file for a URL -/

theorem render_eq (url : String) : render (some url) =
    ({ usual with url := url } : Config).validate.map fun _ => unlines (linesWith url) := by
  rw [render, template, setUrl_exampleLines, parse?_linesWith]
  dsimp only
  cases ({ usual with url := url } : Config).validate <;> rfl

theorem fault?_usual_eq_none_iff (url : String) :
    ({ usual with url := url } : Config).fault? = none ↔
      Text.trim url ≠ "" ∧ ∃ e, Channel.endpointOfUrl url = .ok e := by
  rw [fault?_eq_none_iff]
  have hcounts : usual.probeSeconds ≠ 0 ∧ usual.tailSeconds ≠ 0 ∧ usual.requestCapacity ≠ 0 ∧
      usual.responseTimeoutSeconds ≠ some 0 := by decide
  exact ⟨fun ⟨hblank, he, _⟩ => ⟨hblank, he⟩, fun ⟨hblank, he⟩ => ⟨hblank, he, hcounts⟩⟩

/-- **A URL is written into one line, and changes one setting.** It is written exactly if it is not
blank and has an endpoint. The line that gave the usual URL is the only one that changes. Whatever
the URL holds, what is written is read back as this URL, with all else as the file gives it without
one. -/
theorem render_url (url : String) :
    let text := unlines (exampleLines.set urlLine s!"url = {quote url}")
    template none = unlines exampleLines ∧
    exampleLines[urlLine]? = some s!"url = {quote usual.url}" ∧
    (∀ result, render (some url) = .ok result ↔
      (Text.trim url ≠ "" ∧ ∃ e, Channel.endpointOfUrl url = .ok e) ∧ result = text) ∧
    parse? (template none) = some usual ∧ parse? text = some { usual with url := url } := by
  intro text
  refine ⟨rfl, by decide +kernel, fun result => ?_, parse?_template_none, parse?_linesWith url⟩
  rw [render_eq, ← fault?_usual_eq_none_iff]
  rcases validate_cases { usual with url := url } with ⟨fault, hfault, hinvalid⟩ | ⟨hnone, hvalid⟩
  · rw [hinvalid, hfault]
    exact iff_of_false (fun h => by cases h) fun h => by cases h.1
  · rw [hvalid, hnone]
    exact ⟨fun h => ⟨rfl, (Except.ok.inj h).symm⟩, fun h => congrArg Except.ok h.2.symm⟩

/-- A URL whose fragment looks like the rest of another file. -/
def forgedUrl : String := "http://h/#\"\n[sync]\nrequest_log_capacity = 1\n'''\\"

theorem render_url_forged : ∃ text,
    render (some forgedUrl) = .ok text ∧ parse? text = some { usual with url := forgedUrl } := by
  have hblank : Text.trim forgedUrl ≠ "" := by decide +kernel
  have hendpoint : Channel.endpointOfUrl forgedUrl = .ok "ws://h/?ws" := rfl
  obtain ⟨-, -, hrender, -, hparse⟩ := render_url forgedUrl
  exact ⟨_, (hrender _).2 ⟨⟨hblank, _, hendpoint⟩, rfl⟩, hparse⟩

end Vitals.Config
