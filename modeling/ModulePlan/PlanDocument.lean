/-
Plans as documents.
-/

import ModulePlan.Document.Yaml.Writer
import ModulePlan.Plan

namespace ModulePlan

open Document.Yaml (Outline)

def pathOutline (paths : List FilePath) : Outline :=
  .list (paths.map fun path => .text path.toText)

def ReleaseGroup.outline (group : ReleaseGroup) : Outline :=
  .mapping [
    ("release", .int group.release),
    ("output-directories", .mapping (group.outputs.entries.map fun (module, path) =>
      (module, .text path.toText))),
    ("roots", .mapping (group.roots.entries.map fun (module, roots) =>
      (module, pathOutline roots.toList))),
    ("files", pathOutline group.files)]

def Plan.outline (plan : Plan) : Outline :=
  .mapping [
    ("test", .bool plan.test),
    ("options", .list (plan.options.arguments.map .text)),
    ("modules", .list (plan.modules.map .text)),
    ("releases", .list (plan.groups.map ReleaseGroup.outline))]

end ModulePlan
