import GrammarCompiler.Text.CodePointSet

/-!
The code points with the property Default_Ignorable_Code_Point: fillers,
variation selectors, joiners and the like, which leave no trace where they are
not understood. Some are letters or marks by their general category, so they
are no subset of the unprintable ones.
-/

namespace GrammarCompiler.Text

/-- The property Default_Ignorable_Code_Point. -/
def ignorable : CodePointSet :=
  [
   (0x00AD, 0x00AD), (0x034F, 0x034F), (0x061C, 0x061C), (0x115F, 0x1160), (0x17B4, 0x17B5),
   (0x180B, 0x180F), (0x200B, 0x200F), (0x202A, 0x202E), (0x2060, 0x206F), (0x3164, 0x3164),
   (0xFE00, 0xFE0F), (0xFEFF, 0xFEFF), (0xFFA0, 0xFFA0), (0xFFF0, 0xFFF8), (0x1BCA0, 0x1BCA3),
   (0x1D173, 0x1D17A), (0xE0000, 0xE0FFF)
  ]

end GrammarCompiler.Text
