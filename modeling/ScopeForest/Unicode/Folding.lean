import ScopeForest.Unicode.Table

namespace ScopeForest.Unicode

/-- Each entry is written as how far it is from the entry before, and how far its counterpart is
from it: twice the distance, and one more if the counterpart comes before. -/
def foldTable : String :=
  "cNcMBcMBcMBcMBcMBcMBcMBcMBcMBcMBcMBcMBcMBcMBcMBcMBcMBcMBcMBcMBcMBcMBcMBcMBcMBcMdNchQLcMBcMBcMB
  cMBcMBcMBcMBcMBcMBcMBcMBcMBcMBcMBcMBcMBcMBcMBcMBcMBcMBcMBcMCcMBcMBcMBcMBcMBcMBcMbICCCCCCCCCCCC
  CCCCCCCCCCCCCCCCCCCCCCCCCCCCCCCCCCCECCCCCDCCCCCCCCCCCCCCCDCCCCCCCCCCCCCCCCCCCCCCCCCCCCCCCCCCCC
  CCCCCCCCCCjJBCCCCCCuRCqEBCCCCpWBCCpUBpUBCDgCBpOBpQBCCpUBpYCqGBqCBCEqGBqKCqMBCCCCCCqUBCCqUDCCqU
  BCCqSBqSBCCCCqWBCECIEBCCEBCCEBCCCCCCCCCCCCCCCCCDCCCCCCCCCCCCCCCCCDEBCCCChNBeJBCCCCCCCCCCCCCCCC
  CCCCCCCCCCCCCCCCCCCCCCCCkBCCCCCCCCCCCCCCCCCCIbfyKBCCmPBbfyEDCCpBBfIBfMBCCCCCCCCCjNiYbRCCCECJiY
  HcYCcWBcWBcWCeYCeWBeWCcMBcMBcMBcMBcMBcMBcMBcMBcMBcMBcMBcMBcMBcMBcMBcMBcMCcMBcMBcMBcMBcMBcMBcMB
  cMBcMXCNQBcJBbZEbFBbTCCCCCCCCCCCCCCCCCCCCCCCCCeFBdTDeRBeZCCCPBCDkBBkBBkBBgEBgEBgEBgEBgEBgEBgEB
  gEBgEBgEBgEBgEBgEBgEBgEBgEBcMBcMBcMBcMBcMBcMBcMBcMBcMBcMBcMBcMBcMBcMBcMBcMBcMBcMBcMBcMBcMBcMBc
  MBcMBcMBcMBcMBcMBcMBcMBcMBcMbXCCCCCCCCCCCCCCCCCCCCCCCCCCCCCCCCCKCCCCCCCCCCCCCCCCCCCCCCCCCCCCCC
  CCCCCCCCCCCCCCCCCCCCCCCCbEBCCCCCCCCCCCCCDCCCCCCCCCCCCCCCCCCCCCCCCCCCCCCCCCCCCCCCCCCCCCCCCCCCCC
  CCCCCCCCCCCCCCCCCCCCCCCCCCCCCCCCCCCCCCCCCCDdSBdSBdSBdSBdSBdSBdSBdSBdSBdSBdSBdSBdSBdSBdSBdSBdSB
  dSBdSBdSBdSBdSBdSBdSBdSBdSBdSBdSBdSBdSBdSBdSBdSBdSBdSBdSBdSBdSehEvmUBvmUBvmUBvmUBvmUBvmUBvmUBv
  mUBvmUBvmUBvmUBvmUBvmUBvmUBvmUBvmUBvmUBvmUBvmUBvmUBvmUBvmUBvmUBvmUBvmUBvmUBvmUBvmUBvmUBvmUBvmU
  BvmUBvmUBvmUBvmUBvmUBvmUBvmUCvmUGvmUbfFRBRBRBRBRBRdfVskRBskPBsjXBsjTBsjTBsjVBsjHBshLBeaiWBCHix
  LBixLBixLBixLBixLBixLBixLBixLBixLBixLBixLBixLBixLBixLBixLBixLBixLBixLBixLBixLBixLBixLBixLBixLB
  ixLBixLBixLBixLBixLBixLBixLBixLBixLBixLBixLBixLBixLBixLBixLBixLBixLBixLBixLDixLBixLBixLmJCCCCC
  CCCCCCCCCCCCCCCCCCCCCCCCCCCCCCCCCCCCCCCCCCCCCCCCCCCCCCCCCCCCCCCCCCCCCCCCCCCCCCCCCCCCCCCCCCCCCC
  CCCCCCCCCCCCCCCCCCCCCCCCCCCCCCCCCCCCCCCCCCCCCCCCCCHeNDwnVCCCCCCCCCCCCCCCCCCCCCCCCCCCCCCCCCCCCC
  CCCCCCCCCCCCCCCCCCCCCCCCCCCCCCCCCCCCCCCCCCCCCCCCCCCCCCCCCCCKRBRBRBRBRBRBRBRJRBRBRBRBRBRLRBRBRB
  RBRBRBRBRJRBRBRBRBRBRBRBRJRBRBRBRBRBRMRCRCRCRJRBRBRBRBRBRBRBRZRBRBRBRBRBRBRBRJRBRBRBRBRBRBRBRJ
  RBRBRBRBRBRBRBRJRBRBfTBfTBTCvfVKgRBgRBgRBgRBTHvkPFRBRBhTBhTIvjJFRBRBiRBiRBPMjXBjXBjTBjTBTlMwgH
  EyuXBylPHcEbUbGBbGBbGBbGBbGBbGBbGBbGBbGBbGBbGBbGBbGBbGBbGBbGUCbfNcABcABcABcABcABcABcABcABcABcA
  BcABcABcABcABcABcABcABcABcABcABcABcABcABcABcABcAcsVdSBdSBdSBdSBdSBdSBdSBdSBdSBdSBdSBdSBdSBdSBd
  SBdSBdSBdSBdSBdSBdSBdSBdSBdSBdSBdSBdSBdSBdSBdSBdSBdSBdSBdSBdSBdSBdSBdSBdSBdSBdSBdSBdSBdSBdSBdS
  BdSBdSbXCCbfuLBlhLBbftFDCCCCCCbfxHBbfuXBbfxNBbfxLCCDCJbfzZBbfzZBCCCCCCCCCCCCCCCCCCCCCCCCCCCCCC
  CCCCCCCCCCCCCCCCCCCCCCCCCCCCCCCCCCCCCCCCCCCCCCCCCCCCCCCCCCCCCCCCCCCCCJCCCFCbtyKCCCCCCCCCCCCCCC
  CCCCCCCCCCCCCCCCCCCCCCCCCCCCCCUCCCCCCCCCCCCCCCCCCCCCCCCCCCfGCCCCCCCCCCCCCECCCCCCCCCCCCCCCCCCCC
  CCCCCCCCCCCCCCCCCCCCCCCCCCCCCCCCCCCCCCCCCLCCCCeanXBCCCCCCCCCFCCevcJDCCCECCCCCCCCCCCCCCCCCCCCev
  eNBevfJBevfBBeveHBeveNCevaRBevcNBevaXBctKBCCCCCCCCCCCCCCCCdTBeveLBearXBCCCCevhFBCCCCCCCCCCCCCC
  CCevxZZCbiHekzPBekzPBekzPBekzPBekzPBekzPBekzPBekzPBekzPBekzPBekzPBekzPBekzPBekzPBekzPBekzPBekz
  PBekzPBekzPBekzPBekzPBekzPBekzPBekzPBekzPBekzPBekzPBekzPBekzPBekzPBekzPBekzPBekzPBekzPBekzPBek
  zPBekzPBekzPBekzPBekzPBekzPBekzPBekzPBekzPBekzPBekzPBekzPBekzPBekzPBekzPBekzPBekzPBekzPBekzPBe
  kzPBekzPBekzPBekzPBekzPBekzPBekzPBekzPBekzPBekzPBekzPBekzPBekzPBekzPBekzPBekzPBekzPBekzPBekzPB
  ekzPBekzPBekzPBekzPBekzPBekzPBekzPbeaOCboMcMBcMBcMBcMBcMBcMBcMBcMBcMBcMBcMBcMBcMBcMBcMBcMBcMBc
  MBcMBcMBcMBcMBcMBcMBcMBcMbvAdCBdCBdCBdCBdCBdCBdCBdCBdCBdCBdCBdCBdCBdCBdCBdCBdCBdCBdCBdCBdCBdCB
  dCBdCBdCBdCBdCBdCBdCBdCBdCBdCBdCBdCBdCBdCBdCBdCBdCBdCfHdCBdCBdCBdCBdCBdCBdCBdCBdCBdCBdCBdCBdCB
  dCBdCBdCBdCBdCBdCBdCBdCBdCBdCBdCBdCBdCBdCBdCBdCBdCBdCBdCBdCBdCBdCBdCgBdABdABdABdABdABdABdABdAB
  dABdABdACdABdABdABdABdABdABdABdABdABdABdABdABdABdABdACdABdABdABdABdABdABdACdABdAcqDeYBeYBeYBeY
  BeYBeYBeYBeYBeYBeYBeYBeYBeYBeYBeYBeYBeYBeYBeYBeYBeYBeYBeYBeYBeYBeYBeYBeYBeYBeYBeYBeYBeYBeYBeYB
  eYBeYBeYBeYBeYBeYBeYBeYBeYBeYBeYBeYBeYBeYBeYBeYgCcMBcMBcMBcMBcMBcMBcMBcMBcMBcMBcMBcMBcMBcMBcMB
  cMBcMBcMBcMBcMBcMBcMegPcMBcMBcMBcMBcMBcMBcMBcMBcMBcMBcMBcMBcMBcMBcMBcMBcMBcMBcMBcMBcMBcMBcMBcM
  BcMBcMBcMBcMBcMBcMBcMBcMbgjXcMBcMBcMBcMBcMBcMBcMBcMBcMBcMBcMBcMBcMBcMBcMBcMBcMBcMBcMBcMBcMBcMB
  cMBcMBcMBcMBcMBcMBcMBcMBcMBcMcNcCBcCBcCBcCBcCBcCBcCBcCBcCBcCBcCBcCBcCBcCBcCBcCBcCBcCBcCBcCBcCB
  cCBcCBcCBcCbuiAcQBcQBcQBcQBcQBcQBcQBcQBcQBcQBcQBcQBcQBcQBcQBcQBcQBcQBcQBcQBcQBcQBcQBcQBcQBcQBc
  QBcQBcQBcQBcQBcQBcQBcQ"

def foldsFrom (first : Nat) : List Nat → List (Nat × Nat)
  | gap :: distance :: rest =>
    let n := first + gap
    let target := if distance % 2 = 0 then n + distance / 2 else n - distance / 2
    (n, target) :: foldsFrom n rest
  | _ => []

def folds : List (Nat × Nat) := foldsFrom 0 (numbers foldTable)

def foldCase (s : CharSet) : CharSet :=
  let reached := CharSet.ofRuns (folds.filterMap fun f ↦
    if s.hasCode f.1 || s.hasCode f.2 then some (f.2, f.2) else none)
  let sources := folds.filterMap fun f ↦ if reached.hasCode f.2 then some (f.1, f.1) else none
  CharSet.ofRuns (s.runs ++ reached.runs ++ sources)

def foldAscii (s : CharSet) : CharSet :=
  let lower := s.inter (CharSet.range 'a' 'z')
  let upper := s.inter (CharSet.range 'A' 'Z')
  CharSet.ofRuns (s.runs ++ lower.runs.map (fun r ↦ (r.1 - 32, r.2 - 32)) ++
    upper.runs.map fun r ↦ (r.1 + 32, r.2 + 32))

end ScopeForest.Unicode
