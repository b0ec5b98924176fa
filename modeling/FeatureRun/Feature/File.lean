import FeatureRun.Feature.Basic
import FeatureRun.Path.Basic

/-!
# The file of a feature

A feature is identified by the file it was read from. A feature that comes from no file has the
empty text for an id.
-/
set_option autoImplicit false

namespace FeatureRun.Feature

/-- The id of the file of a feature, its path being looked at from a directory. -/
def fileId (directory : String) (f : Feature) : String :=
  if f.path = "" then "" else Path.normalize directory f.path

end FeatureRun.Feature
