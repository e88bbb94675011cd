/-
TwinRegion.Command.Rendering — how a survey is written.

A survey is shown as lines of text or as a JSON object, a field to a line.
-/
import TwinRegion.Command.Request
import TwinRegion.Command.Survey
import TwinRegion.Outside.Json

namespace TwinRegion.Command

/-- Bytes in hexadecimal with blanks between them. -/
def hexBytes (bytes : Bytes) : String := " ".intercalate (bytes.toList.map hexByte)

namespace Survey

/-- A survey as lines of text. -/
def renderText (found : Survey) : String :=
  String.join <| List.map (· ++ "\n")
    ["device:        " ++ found.path,
      s!"geometry:      {found.sectors} sectors of {found.sectorSize} bytes",
      "header:        " ++ hexBytes found.word,
      "trailer:       " ++ hexBytes found.mark,
      s!"blob size:     {found.partition.capacity}",
      s!"database size: {found.partition.databaseSize}",
      "journal:       " ++ (if found.marked then "present" else "none"),
      s!"free gap:      {found.slack}",
      s!"database cap:  {found.ceiling}"]

/-- A survey as a JSON object, a field to a line. -/
def renderJson (found : Survey) : String :=
  let field (indent name value : String) : String := indent ++ jsonString name ++ ": " ++ value
  let object (indent : String) (fields : List String) : String :=
    "\x7b\n" ++ ",\n".intercalate fields ++ "\n" ++ indent ++ "\x7d"
  let partition := object "  "
    [field "    " "blob_len" (toString found.partition.capacity),
      field "    " "database_len" (toString found.partition.databaseSize),
      field "    " "journal_len" (toString found.partition.journalSize)]
  object ""
    [field "  " "device" (jsonString found.path),
      field "  " "sector_size" (toString found.sectorSize),
      field "  " "sector_count" (toString found.sectors),
      field "  " "header" (jsonString (hexBytes found.word)),
      field "  " "trailer" (jsonString (hexBytes found.mark)),
      field "  " "journal_present" (if found.marked then "true" else "false"),
      field "  " "layout" partition,
      field "  " "free_gap" (toString found.slack),
      field "  " "max_database_len" (toString found.ceiling)] ++ "\n"

def render (found : Survey) : ReportForm → String
  | .text => found.renderText
  | .json => found.renderJson

end Survey

end TwinRegion.Command
