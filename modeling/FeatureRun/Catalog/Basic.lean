import FeatureRun.Feature.Leaves
import FeatureRun.Feature.Reading
import FeatureRun.OrderedMap
import FeatureRun.Path.Basic

/-!
# The catalog

The features of a workspace by the ids of their files. A file's feature is replaced as a whole, and
no operation on one file touches another.
-/
set_option autoImplicit false

namespace FeatureRun

structure Catalog where
  features : OrderedMap String Feature

namespace Catalog

def empty : Catalog := ⟨.empty⟩

instance : Inhabited Catalog := ⟨empty⟩

def get? (c : Catalog) (file : String) : Option Feature := c.features.get? file

/-- Takes in the text of a file: its feature, or none if the text holds none. -/
def readFile (c : Catalog) (file text : String) : Catalog :=
  match Feature.read text file with
  | some f => ⟨c.features.insert file f⟩
  | none => ⟨c.features.erase file⟩

def removeFile (c : Catalog) (file : String) : Catalog := ⟨c.features.erase file⟩

/-- The features in the order of their files. -/
def sorted (c : Catalog) : List Feature :=
  (c.features.entries.mergeSort fun a b => decide (a.1 ≤ b.1)).map Prod.snd

/-- The number of tests in all files. -/
def countTests (c : Catalog) : Nat := c.features.values.foldr (fun f n => f.countTests + n) 0

def size (c : Catalog) : Nat := c.features.size

end Catalog
end FeatureRun
