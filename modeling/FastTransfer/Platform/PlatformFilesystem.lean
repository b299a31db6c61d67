/- FastTransfer/Platform/PlatformFilesystem
   source: src/platform/PlatformFilesystem.cpp
   digest: Sanitising of relative paths and of device names. -/

import FastTransfer.Qt.QString

set_option autoImplicit false
set_option relaxedAutoImplicit false

namespace FastTransfer.PlatformFilesystem

open QString

/-- The class `[<>:"/\\|?*\x00-\x1F]` of both regular expressions. -/
def isIllegalChar (c : UInt16) : Bool :=
  c == 0x3C || c == 0x3E || c == colon || c == 0x22 || c == slash || c == backslash ||
    c == 0x7C || c == 0x3F || c == 0x2A || c < 0x20

/-- The body of the segment loop: the segment it appends, if any. -/
def sanitizeSegment (seg : QString) : Option QString :=
  let trimmed := trimmed seg
  if trimmed = [] ∨ trimmed = [dot] ∨ trimmed = [dot, dot] then none
  else
    let stripped := removeClass isIllegalChar trimmed
    if stripped = [] then none else some stripped

/-- Strip a drive prefix such as `C:` and the slashes behind it. -/
def stripDrive (clean : QString) : QString :=
  if 2 ≤ clean.length ∧ clean[1]? = some colon then stripLeading slash (clean.drop 2) else clean

def sanitizePath (relativePath : QString) : QString :=
  let clean := stripDrive (stripLeading slash (replaceChar relativePath backslash slash))
  join slash ((splitSkipEmpty slash clean).filterMap sanitizeSegment)

def sanitizeDeviceName (rawName : QString) : QString :=
  let clean := replaceRuns (fun c => isIllegalChar c || c == 0x20) (trimmed rawName)
  let clean := stripTrailing dash (stripLeading dash clean)
  if clean = [] then literal "Unknown-Device" else clean

/-- The depth loop of `isSafeRelativePath`; `none` where it leaves the root. -/
def depthBelow : Int → List QString → Option Int
  | depth, [] => some depth
  | depth, part :: parts =>
      let p := trimmed part
      if p = [dot, dot] then if depth - 1 < 0 then none else depthBelow (depth - 1) parts
      else if p = [dot] then depthBelow depth parts
      else depthBelow (depth + 1) parts

def isSafeRelativePath (relativePath : QString) : Bool :=
  if relativePath = [] then false
  else
    let norm := replaceChar relativePath backslash slash
    if norm.head? = some slash then false
    else if colon ∈ norm then false
    else if 0 ∈ norm then false
    else
      match depthBelow 0 (splitSkipEmpty slash norm) with
      | none => false
      | some depth => 0 < depth

example : sanitizePath (literal "../../Windows/System32/calc.exe") =
    literal "Windows/System32/calc.exe" := by decide

end FastTransfer.PlatformFilesystem
