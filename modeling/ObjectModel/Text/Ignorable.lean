/-
The Unicode property Default_Ignorable_Code_Point (version 17.0), as run
lengths: characters that a reader is shown nothing for, such as joiners,
variation selectors and the fillers among the Hangul letters.
-/
import ObjectModel.Text.CharClass

namespace ObjectModel.Text

/-- Characters with the property Default_Ignorable_Code_Point. -/
def ignorable : CharClass where
  runs := [
    173, 1, 673, 1, 716, 1, 2882, 2, 1619, 2, 85, 5, 2043, 5, 26, 5, 49, 16, 4340, 1,
    52379, 16, 239, 1, 160, 1, 79, 9, 48295, 4, 5327, 8, 798341, 4096]

end ObjectModel.Text
