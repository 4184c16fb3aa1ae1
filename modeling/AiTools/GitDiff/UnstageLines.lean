import AiTools.GitDiff.Patch

/-!
Contract: unstaging and discarding selected lines of a hunk.
-/

namespace AiTools.GitDiff

open AiTools.Lib.UnifiedDiff

end AiTools.GitDiff
