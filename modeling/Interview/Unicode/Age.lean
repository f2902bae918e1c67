import Interview.Unicode.CodeSet

/-! The version of the standard in which each character was first assigned. -/

namespace Interview.Unicode

/-- The versions that assigned characters, with the letters that stand for them in the table. -/
def versions : List (Char × String) := [
    ('A', "1.1"), ('B', "2.0"), ('C', "2.1"), ('D', "3.0"), ('E', "3.1"), ('F', "3.2"),
    ('G', "4.0"), ('H', "4.1"), ('I', "5.0"), ('J', "5.1"), ('K', "5.2"), ('L', "6.0"),
    ('M', "6.1"), ('N', "6.2"), ('O', "6.3"), ('P', "7.0"), ('Q', "8.0"), ('R', "9.0"),
    ('S', "10.0"), ('T', "11.0"), ('U', "12.0"), ('V', "12.1"), ('W', "13.0"), ('X', "14.0"),
    ('Y', "15.0"), ('Z', "15.1"), ('a', "16.0")]

/-- The versions of all characters, in order; a hyphen stands for none. -/
def ageLines : List String := [
    "A502D4A30D8FGD18G3H11I14A89D5G2A47DA10D5G17A70D9FG8H5G3A2DF13J4A2J2-2AI3AP-4A7-A-A20-A44JA7D",
    "F2ADADADADA18E2FG5H4DA12DA66DA12DA41JD2F2D4A53F2A2F2A2F2IA28D2A8H2A2I6F16I4J16K2L2P8-A38-2A7",
    "TA39TAD-2P2M-B17HB13A10IA9BH3-8A27-4TA5-11G4MPJ5HAG9J5AOXHALA26J5A19D3G3H6LA14F2A72D2A5DA15D",
    "A30G2A10D5GD14-D30G3D27-2G3H30J18D49F-14I59-2T3K46-2K15-L28-2L-S11-5X31-X2-5aX8MPM11P6Q2XR8",
    "W10X11TR15QM27PKA3GA53L2A18KLA5KL2A25J2L5PK2I2HI2PA3-A8-2A2-2A22-A7-A-3A4-2AGA7-2A2-2A3H-8A",
    "-4A2-A5-2A21KS2T-2GAG-A6-4A2-2A22-A7-A2-A2-A2-2A-A5-4A2-2A3-3J-7A4-A-7A15JT-10A3-A7GA-A3-A22",
    "-A7-A2-A5-2A10-A3-A3-2A-15AG3-2A10MG-7QS6-A3-A8-2A2-2A22-A7-A2-GA4-2A8J-2A2-2A3-7WA2-4A2-A3",
    "J2-2A11GL6-10A2-A6-3A3-A4-3A2-A-A2-3A2-3A3-3A8HA3-4A5-3A3-A4-2J-6A-14HA12G8-5PA3TA8-A3-A23-",
    "A10PA5-2XJA7-A3-A4-7A2-J2Q-2X-2A2J2-2A10-7UJ8RPA2TA8-A3-A23-A10-A5-2G2A7-A3-A4-7A2-6XA-A2I2",
    "-2A10-I2Y-12SPA2WA8-A3-A23LA16LS2JA6J-A3-A4LR-4R3AR7QA2J2-2A10J6R3J7-WD2-D18-3D24-D9-D-2D7-3",
    "D-4D6-D-D8-6P10-2D3-12A58-4A29-37A2-A-UA2UA-UAU6A4UA7UA3-A-AU2A2UA13UA3-2A5-A-A6Y-A10-2A2M2",
    "-32B72-B33DJ2-4B27L4B6DB-B21D3B7DBD3-D15-JDH2J3K4L2-37D34JD5JD2JD7J3D4J6D26J64K4J2A38-M-5M-2",
    "A39F2H2AHM3A90K5A68K5A82K6D7HD63HD-D4-2D7-D-D4-2D39HD-D4-2D31HD-D4-2D7-D-D4-2D7HD7-D23HD31HD",
    "-D4-2D7HD39HD19-2L2H2D28-3H26-6D85Q-2Q6-2KD630K9D29-3D81P8-7F13XF7X-9XF23-9F20-12F13-F3-F2",
    "-12D93G-2D10-6G10-6D15XD10-6D88T-7D42J-5K70-10G29P2-G12-4G12-4G-3G42-2G5-11H42K2-4H26-6H10K",
    "-3H2G32H28-2H2K63-K29-2K11-6K10-6K14-2P15W2X14-49I76X-a2I45X2aJ43M3J12M6L52-8L4J56-3J15-3J51",
    "R9a2-5T43-2T3M8-8K35M4SP2U-5G108H88I7J28P15S4XRLKI2A155BJ4A90J6A22-2A6-2A38-2A6-2A8-A-A-A-",
    "A31-2A53-A15-A14-2A6-A19-2A3-A9-A47DA23FD6F5G2H2FH7F5J-O4A7F-2A27-H5L8-3A11BCD3F2H4K3LNP3QSX",
    "-15A18D2F7HI4J-15A57D2GHF15HI2JK3A48DIJ4KQ2-4A91D9F12A242F14ADA121DFD30F52G2H11I12KL11P7R4S",
    "A37D2a3-22A11-21A139F20GA150F10A80D8F8A20G2F2HDA86D2F12H2F10G8H11JK2G2H16IJ10K3J4K10LK19LKL4",
    "K24PA4LA4L2A28LA35LALA4L3AKA7L2A7F14A31L3A24LA14LH7I4MJML2F28J4F16D256F512G14H6I7J5I4J41P3J5",
    "K5P26-2P32-WP34T3P12UP8ST25Q4T15UH47XH47XI13J3KJ3I4J6K2H107K7M2-5H45-M-5M-2H54M2-7HL-14LH23",
    "-9H7-H7-H7-H7-H7-H7-H7-H7-J32H24J4H2J19KM10P7R2S5T5UW3X11-34D26-D89-12D214-26D12Z4A56D3F3DA-",
    "A84F2-2A6F2A94F-5A40JST-A94-A16D24L3W5H16J20a2-9ZF16A29G2-A36K12GF15A28G2HA50F15A12G4A47V",
    "A119G4A99G2A31GD6582W10G64A20902H22J8K8MQ9S21T5W13X3D1165-3D18F2D16FD12FD3FD-9K48J300-20J32",
    "L2J18M8J28P6QMK88-8H23I4J5I2J107L2QL2M2P12L10MP3RTP2Q6T2U6X2U5W4a3-2X2-X-X5a3-21X3W2PM2LJ5",
    "H44W-3K10-6I56-8J69R-8J12-6K28Q2T2J84-11JK29-3K78-K11-4K2P31-J55-9J14-2J10-2J4K28P4K67-24K5",
    "M23-10L6-2L6-2L6-9L7-L7-P48Q4P2U2W4-4Q80K46-2K10-6B11172-12K23-4K49-4B2048A6702M2F59K3-2H106",
    "-38A7-12A5-5DA25-A5-A-A2-A2-A108L16X-16A365X16A64-2A54-7XE32A12FGX2F16H10-6A4J3P7Q2A21F2G2",
    "A10-A19-A4-4A3FA-A135-2A-A94F2A94-3A6-2A6-2A6-2A3-3A7-A7-10D3CA3G12-G26-G19-G2-G15-2G14-34",
    "G123-5G3-4G45-3G9H75P2R2-J12W-3P-47J46-130J29-3J49-15P28-4E31PE4-9S3E27-5P43-5G30-GH36-4H14",
    "-42E38G2E38G80-2G10-6R36-4R36-4P40-8P52-11PX11-X15-X7-X2-X11-X15-X7-X2-3a52-12P311-9P22-10P8",
    "-24X6-X42-X9-69G6-2G-G44-G2-3G-2GK22-K9P63-8P9-48Q19-Q2-5Q5I26K2-3IJ26-5J-64M56-4Q2M2Q16-2",
    "Q46H4-H2-5H8-H3-H27T2-2H3-4H9T-7H9-7K32P32-32P39-4P12-9K54-3K29-2K27-5K8P18-7P4-12P7-80K73",
    "-55Q51-13Q51-7Q6T40-8T10-6a38-3a29-8a2-208K31-W42-W3-2W2-16a3-55aY3T40-8T42-22X26-38W28-20",
    "U23-9L78-4L30X6-9PK66X-10T-2M25-7M10-6M53-M14T3W-8P39-9M73Q4PW2M10PQ5-P20-11P18-P43RY3-62Q7-",
    "Q-Q4-Q15-Q11-6P59-5P10-6QP3-P8-2P2-2P22-P7-P2-P5-TP9-2P2-2P3-2Q-6P-5P7-2P7-3P5-11a10-a-2a-",
    "a38-a10-a-2a-a4-a10-a2-8a2-29R90WR-RTUW2-30P72-8P10-166P54-2P18Q20-34P69-11P10-6R13-19M56UX",
    "-6M10-6a20-28Q26T-2Q15-4Q16X7-185T60-100P83-12PW7-2W-2W8-W2-W30-W2-2W12-9W10-70U8-2U46-2U11",
    "-27S72-8S52U2S23TS5-13X16P57-7Y10-182a34-14a10-6R9-R45-R14-10R29-3R32-2R22-R14-73S7-S2-S44-3",
    "S-S2-S9-8S10-6T6-T2-T37-T2-T6-7T10-310T25-7Y17-Y41-3Y28a-85W-15U50-13UI879P42Q-102I99P12-I4P",
    "-11Q196-2636X99-13K1071YU9Y29-10a3995-5Q583-6841a58-1734L569-7P31-P10-4P2X79-X10-6P30-2P6-10",
    "P70-10P10-P7-P21-5P19-432a58-198T91-101M69U6-4UM47U9-7M17-64RSU2W-11W2-14R6125T5U6-8R755W483",
    "-41aW9-8935X4-X7-X2-L2S285X4-15Y-29U3-2Y-14U4-8S396-2308P107-5P13-3P9-7P10-2P8-3932a250-6",
    "a436-76X46-2X23-9X116-60E246-10E39-2JE180Q11X2-21H70-122Y20-12T20-12G87-9I18T7-135E85-E71-E2",
    "-2E-2E2-2E4-E12-E-E4GE2-E65-E4-2E8-E7-E28-E4-E5-E-3E7-E338H2-2E290I2-2E50Q652-15Q5-Q15-1104",
    "X31-6Y6-213R7-R17-2R7-R2-R5-5Y62-33Y-112U45-3U14-2U10-4U2-320X31-17U58-5U-464Y42-214a43-4a",
    "-480X7-X4-X2-X15-P197-2P16-41R75U-4R10-4R2-785T68-76U61-194M4-M27-M2-M-2M-M10-M4-M-M-6M-4M-M",
    "-M-M3-M2-M-2M-M-M-M-M-M2-M-2M4-M7-M4-M4-M-M10-M17-5M3-M5-M17-52M2-270J44-4J100-12L15-2L14P-",
    "L15-L15P22-10K11P2W3K31TLKL11KLKL2KL3KL3K5L8KL7KL10M2UW3L9KLK2L2KL10K4L2KL10R18W-56L26KL2-13",
    "K34L9R-4K9-7L2-14S6-154L33P12Q3L6PL70PQ2L20P12L37PL5P4Q5P12L17P7Q8L63PLPL182PL4P2QL62P2M4P7",
    "Q5L24P18RP41RP86L5ML16ML3MLMLMLML3ML6M2L4MLM2L4ML12P2Q2L11P48L70P10QR2S2UW2-4YX3P13-3P4R3S2T",
    "UW2-3L116Y3-4Y5P85T4Y-6U12-4X-15P12-4P56-8P10-6P40-8P30-2W2a10-4a2-62S12WU3Q9R6SR8S8RS2R12U",
    "R12ST3R15S13T5UWT4W2XTUT4Q5R13S6T11W2U6W3U2T10U6QT2U8WXU3S23T25U84-12T14-2U4WY3U3X2-3U3W4Y2a",
    "-5aU6W19X4Y3W7X4Y3aYW3X3a-7Y2W7X3Y2a-2aX8Ya-6X7Y2-7W147-W55a37W10-1028B2E42711W7X2-32K4149X4",
    "Y-6L222-2Q5762-14S7473-15Z622-2466E542-1504B2W4939-5Y4192-56398B2-65534B2-65534B2-65534B2",
    "-65534B2-65534B2-65534B2-65534B2-65534B2-65534B2-65534B2-E-30E96-128G240-65038B131074"]

def ages : List Run := table 1 ageLines

def assignedBy? (version : String) : Option CodeSet :=
  (versions.find? (·.2 == version)).map fun (last, _) =>
    having ((versions.filter (·.1 ≤ last)).map fun (code, _) => code.toString) ages

end Interview.Unicode
