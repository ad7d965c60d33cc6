import FleetPosture.Proofs.Socket.Row

/-! The rows of a table of sockets are read back, whatever the widths of its columns. A row without a
state has one word less than the others, and that is how its owner is found. -/

namespace FleetPosture.Socket

namespace Bound

def row (b : Bound) : Netstat.TableRow where
  protocol := b.protocol
  sixth := b.sixth
  received := b.received
  unsent := b.unsent
  host := b.host
  number := b.number
  foreign := b.foreign
  state := b.state?
  pid := b.pid
  program := b.program
  isWord_host := b.isWord_host
  bare_host := b.unbracketed.1
  isWord_foreign := b.isWord_foreign
  isWord_state := b.isWord_of_mem_state?
  stated := b.state?_ne_none
  newline_program := b.unbroken_program.oneLine.1

theorem port_row (b : Bound) : b.row.port = b.port := by
  have state : b.row.state.getD [] = b.state := b.getD_state?
  rw [Netstat.TableRow.port, state]
  rfl

end Bound

namespace Netstat

def written (w : Widths) (bs : List Bound) : String :=
  String.ofList (Text.terminated (bs.map (·.row.text w)))

theorem readLine_row (b : Bound) (w : Widths) : readLine (b.row.text w) = .ok b.entry := by
  have single : Text.laterWords b.row.program = [] := Text.laterWords_of_unbroken b.unbroken_program
  have name : Text.upToBlank b.row.program = b.program := Text.upToBlank_of_unbroken b.unbroken_program
  rw [b.row.readLine_text_of_found w fun _ => single, name, b.port_row]
  rfl

theorem entries_read_written (bs : List Bound) (w : Widths) :
    (read (written w bs)).entries = bs.map Bound.entry := by
  have newline : ∀ line ∈ bs.map (·.row.text w), '\n' ∉ line :=
    List.forall_mem_map.2 fun b _ => b.row.newline_text w
  have listed : (bs.map (·.row.text w)).map readLine = (bs.map Bound.entry).map .ok := by
    rw [List.map_map, List.map_map]
    exact List.map_congr_left fun b _ => readLine_row b w
  rw [written, read_terminated newline, listed, Listing.entries_map_ok]

end Netstat
end FleetPosture.Socket
