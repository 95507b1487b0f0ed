import ToolServer.Diff.Change
import ToolServer.Form

/-!
# Version differences as values

The value that the difference of two versions is kept as. Parts that are absent are left out.
-/

namespace ToolServer.Diff

open Document
open Form (part partIf textList)

def Detail.toValue (d : Detail) : Value :=
  .map (part "field" (.text d.field) ++ partIf "oldValue" .text d.oldValue ++
    partIf "newValue" .text d.newValue)

def Change.toValue (c : Change) : Value :=
  .map (part "kind" (.text c.kind) ++ part "severity" (.text c.severity.name) ++
    partIf "toolName" .text c.toolName ++ part "description" (.text c.text) ++
    partIf "details" (fun ds => .list (ds.map Detail.toValue)) c.details)

def Stats.toValue (s : Stats) : Value :=
  .map (part "toolsAdded" (.int s.toolsAdded) ++ part "toolsRemoved" (.int s.toolsRemoved) ++
    part "toolsModified" (.int s.toolsModified) ++ part "toolsUnchanged" (.int s.toolsUnchanged) ++
    part "envVarsAdded" (.int s.envVarsAdded) ++ part "envVarsRemoved" (.int s.envVarsRemoved))

def VersionDiff.toValue (d : VersionDiff) : Value :=
  .map (part "summary" (.text d.summary) ++ part "changes" (.list (d.changes.map Change.toValue)) ++
    part "isBackwardsCompatible" (.bool d.isCompatible) ++ part "migrationNotes" (textList d.notes) ++
    part "stats" d.stats.toValue)

end ToolServer.Diff
