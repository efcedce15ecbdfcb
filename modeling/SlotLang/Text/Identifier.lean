/-!
# Characters of identifiers

The Unicode properties `XID_Start`, `XID_Continue` and `Emoji_Presentation` of version 10, beyond
ASCII. An identifier starts with a letter or an underscore and goes on with those and digits; a
character shown as a picture is an identifier of its own.
-/

namespace SlotLang.Text

def inRanges (ranges : Array (Nat × Nat)) (n : Nat) : Bool :=
  ranges.any fun (first, last) => first ≤ n && n ≤ last

/-- Ranges in order, each given by how far it lies behind the one before and by how long it is. -/
def rangesFrom (start : Nat) : List Nat → List (Nat × Nat)
  | gap :: size :: rest =>
    (start + gap, start + gap + size - 1) :: rangesFrom (start + gap + size) rest
  | _ => []

/-- The numbers that letters stand for: a small letter is the last digit of a number, and capital
letters are the digits in front of it. A line may end anywhere. -/
def numbersFrom (front : Nat) : List Char → List Nat
  | [] => []
  | c :: cs =>
    if c.isLower then (26 * front + (c.toNat - 'a'.toNat)) :: numbersFrom 0 cs
    else if c.isUpper then numbersFrom (26 * front + (c.toNat - 'A'.toNat)) cs
    else numbersFrom front cs

def rangesOf (letters : String) : Array (Nat × Nat) :=
  .mk (rangesFrom 0x80 (numbersFrom 0 letters.toList))

/-- `XID_Start` beyond ASCII. -/
def identStartRanges : Array (Nat × Nat) :=
  rangesOf "BqbkbebfxbBfbRqemofhbbbEzfbcddbbgbbdbbbubDfbFjiGkbBmcbhBnCuBbfdBtBrBjcbDvbbpchckdcbqbbBeB
dDllbyBhjcebfwebjbdbxzhlCbvbiCsCcdbsbhkpqeicccwbhbbdedbqbncbdockbigeccwbhbcbcbcBfebbtdqjbdbwbhbcbfdb
sbpcxblicccwbhbcbfdbBecbdpbrbbgddbedcbbbcdcdddmwbCaibdbxbqdbBadfcBebeibdbxbkbfdbBgbbcpcsibdbBpcbqbfd
idygfsdybjbbchCgBwbbnhCgcbbccbbcbgebhbdbbbbccbebbkbcfbbveBgbClibBkBbfElBrubqgeedbdchdenmbrBmbbfbcBrb
MvbechbbbecBpbecBhbechbbbecpbCfbecCpBlqqDicgdXwcrbBafCxdlhnbeososonbdpCaBjbebCpDkiBpbbfCskBfBxBecflB
seBaCcxjCbDebDpBvrhCdBenckBsBaBkBpdkBkcjDsebgbcjHkCmKscgcBmcgcibbbbbbbBfcCbbhbbddbhdecgenfdbhEmbnbqn
DxbebckbbcggbbbbbbqceffebrBpDZbBvbBvbFdgedcmBmbbfbcCehbqxjhbhbhbhbhbhbhbhVedzjhfcfeDigdbDmbefBqcDqrB
bCbqTsJTeCwBFApvBSvCpBucKjdqkcuBvqBfcDcBnjcDzcBkbiCllbdbebxBdCaoByCkgdbbbmBckxzBdhBvBcbqfbkkfbBpxdbi
uxdbdBybbdccfcbbbydclhdmgcgcgjhbhbBrbkkElBdQNsmxeBxMNcOccEcBmhmffbbkbnbfbbbcbcbEeBhFjgIksCmcCcBokEpb
bbdbbbbbbbbEwBkBagBalCecBfdgcgcgcdBjmbBabtbcbpcoBiEtCrCbKhBddBxBvBgnBefBmkBecBkeibfBqGcsBkeBkeBoiCaG
aLzjwkiFwgcbbBsbcdbcxkxjBfCntbckwkBaCsCegcCmbpebdbBbBsBddBdBjibBcBbCckwktnsEgCvCdBznBzBEeCbCxBtBgzBa
BkBpBjdbmBwoevbbbBjsbzDghbbbebpbkhBvBmicccwbhbcbfdbsbmfGcCbseCbBwucbbHcBvBpeBkBwubChBrDhBaPaCmBfbJwb
kBohbvblBoceCcCfKdjbBlrbBxBeEihbcbBmvbBAvBJmDyEhrHoEBsBPfFZtWlMUbVxhBfEjBesBwqeBfvftBHwCrlbConCmcBeJ
BptBDbOAvLbDdPgDKuEdfndjhkIWkDhbCtbccbcccebmbbbhbCnbecibhbBcbebfbbdhbNcczbzbBfbzbBfbzbBfbzbBfbzbiGDo
HpChCqBUqebBbbcbbcbbkbebbbbgbebbbbbbdbcbbcbbbbbbbbbbcbbcebhbebebbbkbrfdbfbrGOaCLEtBpGDplIocINqoLBlEP
jUw"

/-- What `XID_Continue` adds to `XID_Start` beyond ASCII. -/
def identRestRanges : Array (Nat × Nat) :=
  rangesOf "CdbWmEixbJrfKfBtbbbcbcbbCulBwBfgbDxhcgccbeckxbBeBbDnlpkBhjBiebjbdbfBrdEqobBhCcdbsbhkcckrd
CebbhcccdjbkcckrdCebbfeccddbumdbldCebbibdbducckkgbdCebbhcccdickccksbChfddbejbokqeCghbdbehclcckrdCebb
hbdbehclcckqeCdcbhbdbejbkcckscCsbegbbbigkccCjbbimibkDjbbhbclgckCkcgklbbbbbecBxubcflbBkjbDwubkmeedbdc
hdenmbpBBbdjjBJsdBddBdcBecCmBgjbckBhdckFnbEomemkkEylCifCfkbBdclgkwoCofBvrlkrjmdBenckBsoBwuikgkEodbve
bgbcdHqCgbfWdctbEtnebdmEOcdFlbDsBgVigEbcBSNdkCrbekBgcDccKmbdbebxfDkcByskkgsokBciznBseBvopklbkkBvombi
cckBhdBybbdccfcbbBpffcJcibcckBDZgbBCjqqqdcydHkkBlbDqcXhbIsbFtfLhkCApdbcfeBodebGjcBYfdCbpBfkpeBtlCbkg
dBkobkBzbmdBwoiedkDemgbGemfkgeCebbhcccdjbkcchdfHksjkDiumkIfhcjBbcDerpkDdnikDfpekQgkKtkBohbeibjlBuqPp
ibiqkCewboEsgdbbcbhbbikBDEkkFefChhzkBNbBuqeBDEocHWofdgiichBeeFsdCCnByTsCdeByibobwfbpCAihbrchbcbfDHdh
EfhfkBTCIgJg"

/-- `Emoji_Presentation` beyond ASCII. -/
def pictureRanges : Array (Nat × Nat) :=
  rangesOf "NCscHxedbcbUbcvcBymBrbtbnbicrcfcibfbvbhcbbebcbhbecBcbBjbbbedbbCjdybobBHbcBzbebGPLebHubHib
ckCxBabbybubcfbdvcGsBhmjbCsbwmBrefmrdbdCtbbbHfcClnebysbBacnbDiDhBwCsgbddychfUpBrbdbgbgdBcuyBobpx"

def isIdentStart (c : Char) : Bool :=
  c.isAlpha || c == '_' || (0x80 ≤ c.toNat && inRanges identStartRanges c.toNat)

def isIdentRest (c : Char) : Bool :=
  c.isAlphanum || c == '_' ||
    (0x80 ≤ c.toNat && (inRanges identStartRanges c.toNat || inRanges identRestRanges c.toNat))

def isPicture (c : Char) : Bool :=
  0x80 ≤ c.toNat && inRanges pictureRanges c.toNat

end SlotLang.Text
