import FleetPosture.Proofs.FileListing
import FleetPosture.Proofs.Indexed
import FleetPosture.Report.Rules

/-! The report on world-readable files, for hosts whose files were listed as text. What it shows of a
host is decided line by line. -/

namespace FleetPosture.Report

theorem worldReadableFiles_rows (s : Snapshot) : (worldReadableFiles s).rows =
    s.hosts.flatMap fun h =>
      (FileListing.openPaths h.files).map fun path => [h.identity, String.ofList path] := by
  simp only [worldReadableFiles, FileListing.openPaths, List.map_map, Function.comp_def,
    String.ofList_toList]

/-- A host whose files were read from a listing has one row for each line of the listing that names a
file every user may read, in the order of the lines. A line has its row, or none, whatever the other
lines are and whatever the other hosts have. -/
theorem worldReadableFiles_exact (s : Snapshot) (before after : List Host) (h : Host)
    (text : String) : ∃ shown : List (Nat × List Char),
      (worldReadableFiles
          { s with hosts := before ++ { h with files := FileListing.read text } :: after }).rows =
        (worldReadableFiles { s with hosts := before }).rows ++
          (shown.map fun f => [h.identity, String.ofList f.2]) ++
          (worldReadableFiles { s with hosts := after }).rows ∧
      (shown.Pairwise fun f g => f.1 < g.1) ∧
      ∀ n path, (n, path) ∈ shown ↔
        ∃ line, (text.toList.splitOn '\n')[n]? = some line ∧
          FileListing.NamesOpenFile line path := by
  refine ⟨foundAt FileListing.openPath? (text.toList.splitOn '\n'), ?_, pairwise_foundAt,
    fun n path => ?_⟩
  · simp only [worldReadableFiles_rows, List.flatMap_append, List.flatMap_cons,
      FileListing.openPaths_read, ← map_foundAt, List.map_map, List.append_assoc]
    rfl
  · simp only [mem_foundAt_iff, FileListing.openPath?_eq_some_iff]

example (s : Snapshot) (h : Host) :
    let listing :=
      "644\t/etc/passwd\r\n640\t/etc/shadow\nnoise\n +104 \t/srv/a\tb \n40000000004\t/x\n4\t\r"
    (worldReadableFiles { s with hosts := [{ h with files := FileListing.read listing }] }).rows =
      [[h.identity, "/etc/passwd"], [h.identity, "/srv/a\tb "]] := by
  cbv

end FleetPosture.Report
