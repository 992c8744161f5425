import Pseudocode.Tree.Build

/-!
# Sample trees

A well-formed tree of every node type, and three larger ones.
-/

namespace Pseudocode

namespace Tree

/-- `2 + 3` -/
def sampleSum : Tree :=
  binary (.expr .add) 0x1000 (num 0x1000 2) (num 0x1004 3)

/-- `if (v0 != 0) return 1;` -/
def sampleIf : Tree :=
  ifStmt 0x2000 (binary (.expr .ne) 0x2000 (var 0x2000 0) (num 0x2004 0))
    (returnStmt 0x2008 (some (num 0x2008 1))) none

/-- Address of the sample of a node type. -/
def sampleAddress (type : NodeType) : Address := 0x4000 + UInt64.ofNat type.index * 0x10

/-- A well-formed tree whose root has a given type, with the children its kind expects. -/
def sample (type : NodeType) : Tree :=
  let ea := sampleAddress type
  let value (n : UInt64) : Tree := num (ea + 4) n
  let stmt : Tree := exprStmt (var (ea + 8) 1)
  let last : Tree := leaf (NodeType.stmt .breakStmt).tag (ea + 12)
  match type with
  | .expr .empty | .stmt .empty | .stmt .breakStmt | .stmt .continueStmt => leaf type.tag ea
  | .expr .num => num ea 42
  | .expr .fNum => fnum ea ⟨0x3FF8000000000000⟩
  | .expr .str => str ea "hello"
  | .expr .obj => obj ea 0x8000
  | .expr .var => var ea 3
  | .expr .helper => helper ea "__ROL4__"
  | .expr .type => typeName ea "int"
  | .expr .insn => insn ea stmt
  | .expr .fNeg | .expr .neg | .expr .cast | .expr .lNot | .expr .bNot | .expr .ptr | .expr .ref
  | .expr .postInc | .expr .postDec | .expr .preInc | .expr .preDec | .expr .sizeof =>
    unary type ea (value 1)
  | .expr .memRef | .expr .memPtr => member type ea (var ea 2) 8
  | .expr .tern => ternary ea (value 1) (value 2) (value 3)
  | .expr .call => call ea (obj ea 0x8000) [value 1, value 2, value 3]
  | .stmt .block => block ea [stmt, last]
  | .stmt .exprStmt => stmt
  | .stmt .ifStmt => ifStmt ea (value 1) stmt (some last)
  | .stmt .forStmt => forStmt ea (value 0) (value 1) (value 2) stmt
  | .stmt .whileStmt => whileStmt ea (value 1) stmt
  | .stmt .doStmt => doStmt ea stmt (value 1)
  | .stmt .switchStmt => switchStmt ea (var ea 0) [.mk [1, 2] stmt, .mk [] last]
  | .stmt .returnStmt => returnStmt ea (some (value 0))
  | .stmt .gotoStmt => gotoStmt ea 7
  | .stmt .asmStmt => asmStmt ea [ea, ea + 2, ea + 4]
  | .expr _ => binary type ea (value 1) (value 2)

/-- Number of children that the root of `sample type` has. -/
def sampleChildCount : NodeType → Nat
  | .stmt .empty | .stmt .breakStmt | .stmt .continueStmt | .stmt .gotoStmt | .stmt .asmStmt => 0
  | .expr .empty | .expr .num | .expr .fNum | .expr .str | .expr .obj | .expr .var | .expr .helper
  | .expr .type | .expr .insn => 0
  | .expr .fNeg | .expr .neg | .expr .cast | .expr .lNot | .expr .bNot | .expr .ptr | .expr .ref
  | .expr .postInc | .expr .postDec | .expr .preInc | .expr .preDec | .expr .sizeof
  | .expr .memRef | .expr .memPtr => 1
  | .expr .tern => 3
  | .expr .call => 4
  | .stmt .exprStmt | .stmt .returnStmt => 1
  | .stmt .block | .stmt .whileStmt | .stmt .doStmt => 2
  | .stmt .ifStmt | .stmt .switchStmt => 3
  | .stmt .forStmt => 4
  | .expr _ => 2

/-- The element `v0[v3]`. -/
def sampleElement (ea : Address) : Tree := binary (.expr .idx) ea (var ea 0) (var (ea + 2) 3)

/-- The loop of the sample function. -/
def sampleLoop : Tree :=
  forStmt 0x5010
    (binary (.expr .asg) 0x5010 (var 0x5010 3) (num 0x5014 0))
    (binary (.expr .sLt) 0x5018 (var 0x5018 3) (var 0x501A 1))
    (unary (.expr .preInc) 0x503C (var 0x503C 3))
    (block 0x5020
      [switchStmt 0x5020 (sampleElement 0x5020)
        [.mk [0] (leaf (NodeType.stmt .continueStmt).tag 0x5028),
         .mk [] (exprStmt
          (binary (.expr .asgAdd) 0x5030 (var 0x5030 2) (sampleElement 0x5034)))]])

/-- The check of the sample function. -/
def sampleCheck : Tree :=
  ifStmt 0x5040
    (binary (.expr .sGt) 0x5040 (var 0x5040 2) (num 0x5044 100))
    (exprStmt (call 0x5048 (obj 0x5048 0x9000) [str 0x504C "overflow", var 0x5050 2]))
    (some (exprStmt
      (binary (.expr .asg) 0x5058 (var 0x5058 2) (unary (.expr .neg) 0x505C (var 0x505C 2)))))

/-- A function that sums an array, skips zeros and checks the result:

    int sum(int *v0, int v1)
    {
      int v2 = 0;
      for (v3 = 0; v3 < v1; ++v3)
      {
        switch (v0[v3])
        {
          case 0: continue;
          default: v2 += v0[v3];
        }
      }
      if (v2 > 100)
        log_overflow("overflow", v2);
      else
        v2 = -v2;
      return v2;
    }
-/
def sampleFunction : Function Tree where
  ea := 0x5000
  name := "sum"
  body := block 0x5000
    [exprStmt (binary (.expr .asg) 0x5000 (var 0x5000 2) (num 0x5004 0)),
     sampleLoop,
     sampleCheck,
     returnStmt 0x5060 (some (var 0x5060 2))]

end Tree

end Pseudocode
