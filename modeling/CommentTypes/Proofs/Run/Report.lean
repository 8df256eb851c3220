import CommentTypes.Command.Session
import CommentTypes.Proofs.Json.Layout
import CommentTypes.Proofs.Workspace.Saved
import CommentTypes.Proofs.Outcome

/-!
# Reports that are read back

A report is a value of texts (`textual_report`), so the text printed for it is read as the report,
and so is the file that it is written to (`report_read_back`).
-/

namespace CommentTypes

/-! ## Reports as values of texts -/

theorem Diagnostic.textual_entry (d : Diagnostic) : Json.Textual 1 d.entry := by
  refine .obj (by simp) (by simp) ?_
  simp only [List.forall_mem_cons]
  exact ⟨.str .., .str .., .str .., .str .., nofun⟩

theorem FileResult.textual_entry (r : FileResult) : Json.Textual 3 r.entry := by
  refine .obj (by simp) (by simp) ?_
  simp only [List.forall_mem_cons]
  refine ⟨.str .., .arr fun v hv => ?_, nofun⟩
  obtain ⟨d, -, rfl⟩ := List.mem_map.mp hv
  exact d.textual_entry

theorem RunResults.textual_report (r : RunResults) : Json.Textual 4 (.arr r.report) := by
  refine .arr fun v hv => ?_
  obtain ⟨f, -, rfl⟩ := List.mem_map.mp hv
  exact f.textual_entry

theorem RunResults.parse_reportText (r : RunResults) {limit : Limit} (h : limit.allows 4) :
    Json.parse r.reportText limit = .ok (.arr r.report) :=
  Json.parse_pretty r.textual_report h

theorem RunResults.isShown_of_mem_reportText (r : RunResults) {c : Char}
    (hc : c ∈ r.reportText.toList) : Json.IsShown c := by
  rw [reportText, String.toList_append] at hc
  rcases List.mem_append.mp hc with hc | hc
  · exact Json.isShown_of_mem_pretty r.textual_report hc
  · exact .inr (List.mem_singleton.mp hc)

theorem Json.IsShown.isAscii {c : Char} (h : Json.IsShown c) : c.toNat < 0x80 := by
  rcases h with h | rfl
  · exact Nat.lt_trans h.2 (by decide)
  · decide

/-! ## Reports in files -/

theorem Text.unifyNewlines_of_not_mem {cs : List Char} (h : '\r' ∉ cs) :
    Text.unifyNewlines cs = cs := by
  induction cs with
  | nil => rfl
  | cons c cs ih =>
    rw [List.mem_cons, not_or] at h
    rw [Text.unifyNewlines, ih h.2]
    · exact fun rest hc => absurd hc.symm h.1
    · exact fun hc => absurd hc.symm h.1

/-- A text without carriage returns is read as it was saved. -/
theorem Workspace.readText_save {w saved : Workspace} {p : Path} (hp : p.Normal) {text : String}
    (hreturn : '\r' ∉ text.toList)
    (h : w.save p (Text.Utf8.encode text.toList) = (saved, none)) :
    saved.readText p = .ok text := by
  obtain ⟨hnull, hread⟩ := readBytes_save hp h
  simp only [readText_eq hnull, hread, Text.Utf8.decodeStrict_encode,
    Text.unifyNewlines_of_not_mem hreturn, String.ofList_toList]

theorem Workspace.normal_atHome {w : Workspace} {path p : Path} (hpath : path.Normal)
    (h : w.atHome path = .ok p) : p.Normal := by
  rw [atHome] at h
  split at h
  · rename_i first rest hanchor hparts
    split at h
    · split at h
      · cases h
      · split at h
        · rename_i home hhome
          cases h
          have hstart := Path.normal_ofString home
          refine ⟨hstart.anchored, fun part hpart => ?_⟩
          rcases List.mem_append.mp hpart with hpart | hpart
          · exact hstart.parts part hpart
          · refine hpath.parts part ?_
            rw [hparts]
            exact List.mem_cons_of_mem first hpart
        · cases h
    · cases h
      exact hpath
  · cases h
    exact hpath

theorem RunResults.return_not_mem_reportText (r : RunResults) : '\r' ∉ r.reportText.toList := by
  intro h
  rcases r.isShown_of_mem_reportText h with h | h
  · exact absurd h (by decide)
  · cases h

/-- A report that was written is read, as a configuration is, with the value that it has. -/
theorem Command.readValue_writeReport {w : Workspace} (hlimit : w.limits.nesting.allows 4)
    (r : RunResults) {path p : Path} (hpath : path.Normal) (h : (writeReport w r path).2 = .ok p) :
    Config.readValue (writeReport w r path).1 p = .ok (.arr r.report) := by
  cases hhome : w.atHome path with
  | error e =>
    simp only [writeReport, hhome] at h
    cases h
  | ok home =>
    cases hsave : w.save home (Text.Utf8.encode r.reportText.toList) with
    | mk saved fault =>
      cases fault with
      | some e =>
        simp only [writeReport, hhome, hsave] at h
        cases h
      | none =>
        simp only [writeReport, hhome, hsave] at h ⊢
        cases h
        have hread := Workspace.readText_save (Workspace.normal_atHome hpath hhome)
          r.return_not_mem_reportText hsave
        have hsaved : saved.limits = w.limits := Workspace.limits_save hsave
        rw [Config.readValue, hread]
        simp only [hsaved, r.parse_reportText hlimit]

/-- The text printed for results is read as their report, and so is every file that the report is
written to, by every reader that allows the four lists and objects within each other of a report; the
line for one mismatch is read as its entry. Only ASCII is written. -/
theorem report_read_back (r : RunResults) :
    (∀ limit : Limit, limit.allows 4 →
      Json.parse (Command.Format.render r .json) limit = .ok (.arr r.report)) ∧
    (∀ (w : Workspace) (destination : String) (p : Path), w.limits.nesting.allows 4 →
      (Command.writeReport w r (.ofString destination)).2 = .ok p →
        Config.readValue (Command.writeReport w r (.ofString destination)).1 p =
          .ok (.arr r.report)) ∧
    (∀ (limit : Limit) (d : Diagnostic), limit.allows 1 →
      Json.parse d.entry.compact limit = .ok d.entry) ∧
    (∀ c ∈ r.reportText.toList, c.toNat < 0x80) ∧
    (∀ (d : Diagnostic), ∀ c ∈ d.entry.compact.toList, c.toNat < 0x80) := by
  refine ⟨fun limit => r.parse_reportText, fun w destination p hlimit h => ?_,
    fun limit d hlimit => ?_, fun c hc => ?_, fun d c hc => ?_⟩
  · exact Command.readValue_writeReport hlimit r (Path.normal_ofString destination) h
  · exact Json.parse_compact d.textual_entry hlimit
  · exact (r.isShown_of_mem_reportText hc).isAscii
  · exact (Json.isShown_of_mem_compact d.textual_entry hc).isAscii

/-- Results with a name and types that cannot be written as they are. -/
def oddResults : RunResults :=
  { files :=
    [{ file := "src/\x22été\x22.js"
       status := .checked
       diagnostics :=
         [{ location := { file := "src/\x22été\x22.js", line := 1, column := 5 }
            subject := "x𝒳"
            expected := "a\\\n\x7fb"
            found := "number" }] }] }

/-- They are written into a directory that is made for them, and read back. -/
theorem report_read_back_odd :
    (Command.writeReport { root := .dir [] } oddResults (.ofString "out/./report.json")).2 =
      .ok ⟨"", ["out", "report.json"]⟩ ∧
    Config.readValue
      (Command.writeReport { root := .dir [] } oddResults (.ofString "out/./report.json")).1
      ⟨"", ["out", "report.json"]⟩ = .ok (.arr oddResults.report) ∧
    '"' ∈ oddResults.reportText.toList ∧ '"'.toNat < 0x80 :=
  have hwritten : (Command.writeReport { root := .dir [] } oddResults
      (.ofString "out/./report.json")).2 = .ok ⟨"", ["out", "report.json"]⟩ :=
    eq_ok_of_toOption (by decide +kernel)
  have hmem : '"' ∈ oddResults.reportText.toList := by decide +kernel
  ⟨hwritten, (report_read_back oddResults).2.1 _ _ _ rfl hwritten, hmem,
    (report_read_back oddResults).2.2.2.1 _ hmem⟩

end CommentTypes
