import LexicalModes.Unicode.CharSet

/-!
Ages of characters: the edition of the character tables that each came with.

A code point keeps the age it has once been given. The ages are held as runs of consecutive code
points that came together, each labelled with the letter of its edition; `Age.upTo?` gathers those
of an edition and of all before it, which are the characters known at that time.
-/

namespace LexicalModes.Unicode.Age

/-- Editions in the order in which they appeared, each with its letter and the names that it is
asked for by, in small letters without separators. -/
def editions : List (String × List String) :=
  [("a", ["1.1", "v11"]), ("b", ["2.0", "v20"]), ("c", ["2.1", "v21"]), ("d", ["3.0", "v30"]),
   ("e", ["3.1", "v31"]), ("f", ["3.2", "v32"]), ("g", ["4.0", "v40"]), ("h", ["4.1", "v41"]),
   ("i", ["5.0", "v50"]), ("j", ["5.1", "v51"]), ("k", ["5.2", "v52"]), ("l", ["6.0", "v60"]),
   ("m", ["6.1", "v61"]), ("n", ["6.2", "v62"]), ("o", ["6.3", "v63"]), ("p", ["7.0", "v70"]),
   ("q", ["8.0", "v80"]), ("r", ["9.0", "v90"]), ("s", ["10.0", "v100"]), ("t", ["11.0", "v110"]),
   ("u", ["12.0", "v120"]), ("v", ["12.1", "v121"]), ("w", ["13.0", "v130"]),
   ("x", ["14.0", "v140"]), ("y", ["15.0", "v150"]), ("z", ["15.1", "v151"]),
   ("A", ["16.0", "v160"])]

/-- The runs of code points of one age. The letter `N` marks those without a meaning so far. -/
def runs : Array (Nat × String) :=
  readRuns
    ["a502d4a30d8f1g1d18g3h11i14a89d5g2a47d1a10d5g17a70d9f1g8h5g3a2d1f13j4a2j2N2a1i3a1p1N4a7N1a1N1",
     "a20N1a44j1a7d1f2a1d1a1d1a1d1a1d1a18e2f1g5h4d1a12d1a66d1a12d1a41j1d2f2d4a53f2a2f2a2f2i1a28d2",
     "a8h2a2i6f16i4j16k2l2p8N1a38N2a7t1a39t1a1d1N2p2m1N1b17h1b13a10i1a9b1h3N8a27N4t1a5N11g4m1p1j5",
     "h1a1g9j5a1o1x1h1a1l1a26j5a19d3g3h6l1a14f2a72d2a5d1a15d1a30g2a10d5g1d14N1d30g3d27N2g3h30j18",
     "d49f1N14i59N2t3k46N2k15N1l28N2l1N1s11N5x31N1x2N5A1x8m1p1m11p6q2x1r8w10x11t1r15q1m27p1k1a3g1",
     "a53l2a18k1l1a5k1l2a25j2l5p1k2i2h1i2p1a3N1a8N2a2N2a22N1a7N1a1N3a4N2a1g1a7N2a2N2a3h1N8a1N4a2N1",
     "a5N2a21k1s2t1N2g1a1g1N1a6N4a2N2a22N1a7N1a2N1a2N1a2N2a1N1a5N4a2N2a3N3j1N7a4N1a1N7a15j1t1N10a3",
     "N1a7g1a1N1a3N1a22N1a7N1a2N1a5N2a10N1a3N1a3N2a1N15a1g3N2a10m1g1N7q1s6N1a3N1a8N2a2N2a22N1a7N1",
     "a2N1g1a4N2a8j1N2a2N2a3N7w1a2N4a2N1a3j2N2a11g1l6N10a2N1a6N3a3N1a4N3a2N1a1N1a2N3a2N3a3N3a8h1a3",
     "N4a5N3a3N1a4N2j1N6a1N14h1a12g8N5p1a3t1a8N1a3N1a23N1a10p1a5N2x1j1a7N1a3N1a4N7a2N1j2q1N2x1N2a2",
     "j2N2a10N7u1j8r1p1a2t1a8N1a3N1a23N1a10N1a5N2g2a7N1a3N1a4N7a2N6x1a1N1a2i2N2a10N1i2y1N12s1p1a2",
     "w1a8N1a3N1a23l1a16l1s2j1a6j1N1a3N1a4l1r1N4r3a1r7q1a2j2N2a10j6r3j7N1w1d2N1d18N3d24N1d9N1d1N2",
     "d7N3d1N4d6N1d1N1d8N6p10N2d3N12a58N4a29N37a2N1a1N1u1a2u1a1N1u1a1u6a4u1a7u1a3N1a1N1a1u2a2u1a13",
     "u1a3N2a5N1a1N1a6y1N1a10N2a2m2N32b72N1b33d1j2N4b27l4b6d1b1N1b21d3b7d1b1d3N1d15N1j1d1h2j3k4l2",
     "N37d34j1d5j1d2j1d7j3d4j6d26j64k4j2a38N1m1N5m1N2a39f2h2a1h1m3a90k5a68k5a82k6d7h1d63h1d1N1d4N2",
     "d7N1d1N1d4N2d39h1d1N1d4N2d31h1d1N1d4N2d7N1d1N1d4N2d7h1d7N1d23h1d31h1d1N1d4N2d7h1d39h1d19N2l2",
     "h2d28N3h26N6d85q1N2q6N2k1d630k9d29N3d81p8N7f13x1f7x1N9x1f23N9f20N12f13N1f3N1f2N12d93g1N2d10",
     "N6g10N6d15x1d10N6d88t1N7d42j1N5k70N10g29p2N1g12N4g12N4g1N3g42N2g5N11h42k2N4h26N6h10k1N3h2g32",
     "h28N2h2k63N1k29N2k11N6k10N6k14N2p15w2x14N49i76x1N1A2i45x2A1j43m3j12m6l52N8l4j56N3j15N3j51r9",
     "A2N5t43N2t3m8N8k35m4s1p2u1N5g108h88i7j28p15s4x1r1l1k1i2a155b1j4a90j6a22N2a6N2a38N2a6N2a8N1a1",
     "N1a1N1a1N1a31N2a53N1a15N1a14N2a6N1a19N2a3N1a9N1a47d1a23f1d6f5g2h2f1h7f5j1N1o4a7f1N2a27N1h5l8",
     "N3a11b1c1d3f2h4k3l1n1p3q1s1x1N15a18d2f7h1i4j1N15a57d2g1h1f15h1i2j1k3a48d1i1j4k1q2N4a91d9f12",
     "a242f14a1d1a121d1f1d30f52g2h11i12k1l11p7r4s1a37d2A3N22a11N21a139f20g1a150f10a80d8f8a20g2f2h1",
     "d1a86d2f12h2f10g8h11j1k2g2h16i1j10k3j4k10l1k19l1k1l4k24p1a4l1a4l2a28l1a35l1a1l1a4l3a1k1a7l2",
     "a7f14a31l3a24l1a14l1h7i4m1j1m1l2f28j4f16d256f512g14h6i7j5i4j41p3j5k5p26N2p32N1w1p34t3p12u1p8",
     "s1t25q4t15u1h47x1h47x1i13j3k1j3i4j6k2h107k7m2N5h45N1m1N5m1N2h54m2N7h1l1N14l1h23N9h7N1h7N1h7",
     "N1h7N1h7N1h7N1h7N1h7N1j32h24j4h2j19k1m10p7r2s5t5u1w3x11N34d26N1d89N12d214N26d12z4a56d3f3d1a1",
     "N1a84f2N2a6f2a94f1N5a40j1s1t1N1a94N1a16d24l3w5h16j20A2N9z1f16a29g2N1a36k12g1f15a28g2h1a50f15",
     "a12g4a47v1a119g4a99g2a31g1d6582w10g64a20902h22j8k8m1q9s21t5w13x3d1165N3d18f2d16f1d12f1d3f1d1",
     "N9k48j300N20j32l2j18m8j28p6q1m1k88N8h23i4j5i2j107l2q1l2m2p12l10m1p3r1t1p2q6t2u6x2u5w4A3N2x2",
     "N1x1N1x5A3N21x3w2p1m2l1j5h44w1N3k10N6i56N8j69r1N8j12N6k28q2t2j84N11j1k29N3k78N1k11N4k2p31N1",
     "j55N9j14N2j10N2j4k28p4k67N24k5m23N10l6N2l6N2l6N9l7N1l7N1p48q4p2u2w4N4q80k46N2k10N6b11172N12",
     "k23N4k49N4b2048a6702m2f59k3N2h106N38a7N12a5N5d1a25N1a5N1a1N1a2N1a2N1a108l16x1N16a365x16a64N2",
     "a54N7x1e32a12f1g1x2f16h10N6a4j3p7q2a21f2g2a10N1a19N1a4N4a3f1a1N1a135N2a1N1a94f2a94N3a6N2a6N2",
     "a6N2a3N3a7N1a7N10d3c1a3g12N1g26N1g19N1g2N1g15N2g14N34g123N5g3N4g45N3g9h75p2r2N1j12w1N3p1N47",
     "j46N130j29N3j49N15p28N4e31p1e4N9s3e27N5p43N5g30N1g1h36N4h14N42e38g2e38g80N2g10N6r36N4r36N4",
     "p40N8p52N11p1x11N1x15N1x7N1x2N1x11N1x15N1x7N1x2N3A52N12p311N9p22N10p8N24x6N1x42N1x9N69g6N2g1",
     "N1g44N1g2N3g1N2g1k22N1k9p63N8p9N48q19N1q2N5q5i26k2N3i1j26N5j1N64m56N4q2m2q16N2q46h4N1h2N5h8",
     "N1h3N1h27t2N2h3N4h9t1N7h9N7k32p32N32p39N4p12N9k54N3k29N2k27N5k8p18N7p4N12p7N80k73N55q51N13",
     "q51N7q6t40N8t10N6A38N3A29N8A2N208k31N1w42N1w3N2w2N16A3N55A1y3t40N8t42N22x26N38w28N20u23N9l78",
     "N4l30x6N9p1k66x1N10t1N2m25N7m10N6m53N1m14t3w1N8p39N9m73q4p1w2m10p1q5N1p20N11p18N1p43r1y3N62",
     "q7N1q1N1q4N1q15N1q11N6p59N5p10N6q1p3N1p8N2p2N2p22N1p7N1p2N1p5N1t1p9N2p2N2p3N2q1N6p1N5p7N2p7",
     "N3p5N11A10N1A1N2A1N1A38N1A10N1A1N2A1N1A4N1A10N1A2N8A2N29r90w1r1N1r1t1u1w2N30p72N8p10N166p54",
     "N2p18q20N34p69N11p10N6r13N19m56u1x1N6m10N6A20N28q26t1N2q15N4q16x7N185t60N100p83N12p1w7N2w1N2",
     "w8N1w2N1w30N1w2N2w12N9w10N70u8N2u46N2u11N27s72N8s52u2s23t1s5N13x16p57N7y10N182A34N14A10N6r9",
     "N1r45N1r14N10r29N3r32N2r22N1r14N73s7N1s2N1s44N3s1N1s2N1s9N8s10N6t6N1t2N1t37N1t2N1t6N7t10N310",
     "t25N7y17N1y41N3y28A1N85w1N15u50N13u1i879p42q1N102i99p12N1i4p1N11q196N2636x99N13k1071y1u9y29",
     "N10A3995N5q583N6841A58N1734l569N7p31N1p10N4p2x79N1x10N6p30N2p6N10p70N10p10N1p7N1p21N5p19N432",
     "A58N198t91N101m69u6N4u1m47u9N7m17N64r1s1u2w1N11w2N14r6125t5u6N8r755w483N41A1w9N8935x4N1x7N1",
     "x2N1l2s285x4N15y1N29u3N2y1N14u4N8s396N2308p107N5p13N3p9N7p10N2p8N3932A250N6A436N76x46N2x23N9",
     "x116N60e246N10e39N2j1e180q11x2N21h70N122y20N12t20N12g87N9i18t7N135e85N1e71N1e2N2e1N2e2N2e4N1",
     "e12N1e1N1e4g1e2N1e65N1e4N2e8N1e7N1e28N1e4N1e5N1e1N3e7N1e338h2N2e290i2N2e50q652N15q5N1q15",
     "N1104x31N6y6N213r7N1r17N2r7N1r2N1r5N5y62N33y1N112u45N3u14N2u10N4u2N320x31N17u58N5u1N464y42",
     "N214A43N4A1N480x7N1x4N1x2N1x15N1p197N2p16N41r75u1N4r10N4r2N785t68N76u61N194m4N1m27N1m2N1m1N2",
     "m1N1m10N1m4N1m1N1m1N6m1N4m1N1m1N1m1N1m3N1m2N1m1N2m1N1m1N1m1N1m1N1m1N1m2N1m1N2m4N1m7N1m4N1m4",
     "N1m1N1m10N1m17N5m3N1m5N1m17N52m2N270j44N4j100N12l15N2l14p1N1l15N1l15p22N10k11p2w3k31t1l1k1",
     "l11k1l1k1l2k1l3k1l3k5l8k1l7k1l10m2u1w3l9k1l1k2l2k1l10k4l2k1l10r18w1N56l26k1l2N13k34l9r1N4k9",
     "N7l2N14s6N154l33p12q3l6p1l70p1q2l20p12l37p1l5p4q5p12l17p7q8l63p1l1p1l182p1l4p2q1l62p2m4p7q5",
     "l24p18r1p41r1p86l5m1l16m1l3m1l1m1l1m1l1m1l3m1l6m2l4m1l1m2l4m1l12p2q2l11p48l70p10q1r2s2u1w2N4",
     "y1x3p13N3p4r3s2t1u1w2N3l116y3N4y5p85t4y1N6u12N4x1N15p12N4p56N8p10N6p40N8p30N2w2A10N4A2N62s12",
     "w1u3q9r6s1r8s8r1s2r12u1r12s1t3r15s13t5u1w1t4w2x1t1u1t4q5r13s6t11w2u6w3u2t10u6q1t2u8w1x1u3s23",
     "t25u84N12t14N2u4w1y3u3x2N3u3w4y2A1N5A1u6w19x4y3w7x4y3A1y1w3x3A1N7y2w7x3y2A1N2A1x8y1A1N6x7y2",
     "N7w147N1w55A37w10N1028b2e42711w7x2N32k4149x4y1N6l222N2q5762N14s7473N15z622N2466e542N1504b2",
     "w4939N5y4192N56398b2N65534b2N65534b2N65534b2N65534b2N65534b2N65534b2N65534b2N65534b2N65534b2",
     "N65534b2N1e1N30e96N128g240N65038b131074"]

/-- Characters known when the edition of this name appeared. -/
def upTo? (name : String) : Option CharSet :=
  (editions.findIdx? (·.2.contains name)).map fun last =>
    let letters := (editions.take (last + 1)).map (·.1)
    .ofLabels letters.contains runs

end LexicalModes.Unicode.Age
