import Awen.Workbench.Persistence
import Awen.Workbench.RemovalSteps

/-!
# What the decoder reads back

Every reader of `Persistence` reads back what the encoder wrote of a value that meets the reader's
checks. The checks on one Tab follow from `TabOk` and from ids that are not empty; only the two
uniqueness checks of the decoder, of the targets inside one Tab and of the drafts of one Workspace,
do not follow from the invariant of the commands, and remain as hypotheses here.
-/

namespace Awen.Workbench

open LayoutNode

/-! ## Layouts -/

@[simp] theorem splitDirOf_name (dir : SplitDir) : splitDirOf (.str dir.name) = some dir := by
  cases dir <;> rfl

variable {used : Set String} {t : WorkbenchTab}

end Awen.Workbench
