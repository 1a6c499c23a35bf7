import Schemata.Text.Symbol

/-!
# Upper case

The upper case letters of all scripts.  Where a script has its upper and lower
case letters in turn, a range holds every other code point.
-/

namespace Schemata.Text

/-- The upper case letters above ASCII: the first and the last of a range, and
the step from each to the next. -/
def upperRanges : List (Nat × Nat × Nat) :=
  [(0x00C0, 0x00D6, 1), (0x00D8, 0x00DE, 1), (0x0100, 0x0136, 2),
   (0x0139, 0x0147, 2), (0x014A, 0x0178, 2), (0x0179, 0x017D, 2),
   (0x0181, 0x0182, 1), (0x0184, 0x0186, 2), (0x0187, 0x0187, 1),
   (0x0189, 0x018B, 1), (0x018E, 0x0191, 1), (0x0193, 0x0194, 1),
   (0x0196, 0x0198, 1), (0x019C, 0x019D, 1), (0x019F, 0x01A0, 1),
   (0x01A2, 0x01A6, 2), (0x01A7, 0x01A9, 2), (0x01AC, 0x01AE, 2),
   (0x01AF, 0x01AF, 1), (0x01B1, 0x01B3, 1), (0x01B5, 0x01B7, 2),
   (0x01B8, 0x01B8, 1), (0x01BC, 0x01BC, 1), (0x01C4, 0x01CD, 3),
   (0x01CF, 0x01DB, 2), (0x01DE, 0x01EE, 2), (0x01F1, 0x01F1, 1),
   (0x01F4, 0x01F4, 1), (0x01F6, 0x01F8, 1), (0x01FA, 0x0232, 2),
   (0x023A, 0x023B, 1), (0x023D, 0x023E, 1), (0x0241, 0x0241, 1),
   (0x0243, 0x0246, 1), (0x0248, 0x024E, 2), (0x0370, 0x0372, 2),
   (0x0376, 0x0376, 1), (0x037F, 0x037F, 1), (0x0386, 0x0386, 1),
   (0x0388, 0x038A, 1), (0x038C, 0x038E, 2), (0x038F, 0x038F, 1),
   (0x0391, 0x03A1, 1), (0x03A3, 0x03AB, 1), (0x03CF, 0x03CF, 1),
   (0x03D2, 0x03D4, 1), (0x03D8, 0x03EE, 2), (0x03F4, 0x03F4, 1),
   (0x03F7, 0x03F9, 2), (0x03FA, 0x03FA, 1), (0x03FD, 0x042F, 1),
   (0x0460, 0x0480, 2), (0x048A, 0x04C0, 2), (0x04C1, 0x04CD, 2),
   (0x04D0, 0x052E, 2), (0x0531, 0x0556, 1), (0x10A0, 0x10C5, 1),
   (0x10C7, 0x10C7, 1), (0x10CD, 0x10CD, 1), (0x13A0, 0x13F5, 1),
   (0x1C90, 0x1CBA, 1), (0x1CBD, 0x1CBF, 1), (0x1E00, 0x1E94, 2),
   (0x1E9E, 0x1EFE, 2), (0x1F08, 0x1F0F, 1), (0x1F18, 0x1F1D, 1),
   (0x1F28, 0x1F2F, 1), (0x1F38, 0x1F3F, 1), (0x1F48, 0x1F4D, 1),
   (0x1F59, 0x1F5F, 2), (0x1F68, 0x1F6F, 1), (0x1FB8, 0x1FBB, 1),
   (0x1FC8, 0x1FCB, 1), (0x1FD8, 0x1FDB, 1), (0x1FE8, 0x1FEC, 1),
   (0x1FF8, 0x1FFB, 1), (0x2102, 0x2102, 1), (0x2107, 0x2107, 1),
   (0x210B, 0x210D, 1), (0x2110, 0x2112, 1), (0x2115, 0x2115, 1),
   (0x2119, 0x211D, 1), (0x2124, 0x212A, 2), (0x212B, 0x212D, 1),
   (0x2130, 0x2133, 1), (0x213E, 0x213F, 1), (0x2145, 0x2145, 1),
   (0x2183, 0x2183, 1), (0x2C00, 0x2C2F, 1), (0x2C60, 0x2C60, 1),
   (0x2C62, 0x2C64, 1), (0x2C67, 0x2C6D, 2), (0x2C6E, 0x2C70, 1),
   (0x2C72, 0x2C72, 1), (0x2C75, 0x2C75, 1), (0x2C7E, 0x2C80, 1),
   (0x2C82, 0x2CE2, 2), (0x2CEB, 0x2CED, 2), (0x2CF2, 0x2CF2, 1),
   (0xA640, 0xA66C, 2), (0xA680, 0xA69A, 2), (0xA722, 0xA72E, 2),
   (0xA732, 0xA76E, 2), (0xA779, 0xA77D, 2), (0xA77E, 0xA786, 2),
   (0xA78B, 0xA78D, 2), (0xA790, 0xA792, 2), (0xA796, 0xA7AA, 2),
   (0xA7AB, 0xA7AE, 1), (0xA7B0, 0xA7B4, 1), (0xA7B6, 0xA7C4, 2),
   (0xA7C5, 0xA7C7, 1), (0xA7C9, 0xA7C9, 1), (0xA7D0, 0xA7D0, 1),
   (0xA7D6, 0xA7D8, 2), (0xA7F5, 0xA7F5, 1), (0xFF21, 0xFF3A, 1),
   (0x10400, 0x10427, 1), (0x104B0, 0x104D3, 1), (0x10570, 0x1057A, 1),
   (0x1057C, 0x1058A, 1), (0x1058C, 0x10592, 1), (0x10594, 0x10595, 1),
   (0x10C80, 0x10CB2, 1), (0x118A0, 0x118BF, 1), (0x16E40, 0x16E5F, 1),
   (0x1D400, 0x1D419, 1), (0x1D434, 0x1D44D, 1), (0x1D468, 0x1D481, 1),
   (0x1D49C, 0x1D49E, 2), (0x1D49F, 0x1D4A5, 3), (0x1D4A6, 0x1D4A6, 1),
   (0x1D4A9, 0x1D4AC, 1), (0x1D4AE, 0x1D4B5, 1), (0x1D4D0, 0x1D4E9, 1),
   (0x1D504, 0x1D505, 1), (0x1D507, 0x1D50A, 1), (0x1D50D, 0x1D514, 1),
   (0x1D516, 0x1D51C, 1), (0x1D538, 0x1D539, 1), (0x1D53B, 0x1D53E, 1),
   (0x1D540, 0x1D544, 1), (0x1D546, 0x1D546, 1), (0x1D54A, 0x1D550, 1),
   (0x1D56C, 0x1D585, 1), (0x1D5A0, 0x1D5B9, 1), (0x1D5D4, 0x1D5ED, 1),
   (0x1D608, 0x1D621, 1), (0x1D63C, 0x1D655, 1), (0x1D670, 0x1D689, 1),
   (0x1D6A8, 0x1D6C0, 1), (0x1D6E2, 0x1D6FA, 1), (0x1D71C, 0x1D734, 1),
   (0x1D756, 0x1D76E, 1), (0x1D790, 0x1D7A8, 1), (0x1D7CA, 0x1D7CA, 1),
   (0x1E900, 0x1E921, 1)]

def isUpper (point : Nat) : Bool :=
  if point < 0x80 then 0x41 ≤ point && point ≤ 0x5A
  else upperRanges.any fun (first, last, step) =>
    first ≤ point && point ≤ last && (point - first) % step == 0

end Schemata.Text
