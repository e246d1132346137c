import CallGraphs.Text.Category
import CallGraphs.Text.Recent

/-!
# Characters that cannot be seen

The characters of Unicode that show nothing by themselves: controls, format
characters, private ones, blanks other than the space, marks that only change
their neighbours, and code points without a character.
-/

namespace CallGraphs

/-- Letters and marks with a place of their own that still only change or fill up others. -/
def joiningCharacters : CodeRanges :=
  [(0x9BE, 0x9BE), (0x9D7, 0x9D7), (0xB3E, 0xB3E), (0xB57, 0xB57), (0xBBE, 0xBBE), (0xBD7, 0xBD7),
   (0xCC0, 0xCC0), (0xCC2, 0xCC2), (0xCC7, 0xCC8), (0xCCA, 0xCCB), (0xCD5, 0xCD6), (0xD3E, 0xD3E),
   (0xD57, 0xD57), (0xDCF, 0xDCF), (0xDDF, 0xDDF), (0x115F, 0x1160), (0x1715, 0x1715),
   (0x1734, 0x1734), (0x1B35, 0x1B35), (0x1B3B, 0x1B3B), (0x1B3D, 0x1B3D), (0x1B43, 0x1B44),
   (0x1BAA, 0x1BAA), (0x1BF2, 0x1BF3), (0x302E, 0x302F), (0x3164, 0x3164), (0xA953, 0xA953),
   (0xA9C0, 0xA9C0), (0xFFA0, 0xFFA0), (0x111C0, 0x111C0), (0x11235, 0x11235), (0x1133E, 0x1133E),
   (0x1134D, 0x1134D), (0x11357, 0x11357), (0x113B8, 0x113B8), (0x113C2, 0x113C2),
   (0x113C5, 0x113C5), (0x113C7, 0x113C9), (0x113CF, 0x113CF), (0x114B0, 0x114B0),
   (0x114BD, 0x114BD), (0x115AF, 0x115AF), (0x116B6, 0x116B6), (0x11930, 0x11930),
   (0x1193D, 0x1193D), (0x11F41, 0x11F41), (0x16FF0, 0x16FF1), (0x1D165, 0x1D166),
   (0x1D16D, 0x1D172)]

/-- Whether the characters of a category cannot be seen. -/
def Category.isInvisible (category : Category) : Bool :=
  category.major = .other || category.major = .separator || category = .nonspacingMark ||
    category = .enclosingMark

/-- The characters that cannot be seen. -/
def invisibleCharacters : CodeRanges :=
  let seen := recentCharacters.union (.only ' ')
  ((Category.characters Category.isInvisible).diff seen).union joiningCharacters

/-- A character that cannot be seen by itself. -/
def isInvisible (c : Char) : Bool := invisibleCharacters.contains c

end CallGraphs
